import ClientGen.Api.Printer
import ClientGen.Command.Arguments
import ClientGen.Config
import ClientGen.Document.Description
import ClientGen.Document.Load
import ClientGen.Output.Plan

/-!
# Commands

* `Command.run` — carries out what the arguments ask for.
* `Outcome` — the exit code, and the lines for people.
* `Command.plans` — the plans for the files of clients, without touching any of them.

**Order.** Everything is read and checked before anything is written: the languages, the settings,
the document, the description, the files of every language and their paths. The first problem ends
the command. What the document leaves open is reported in any case.
-/

namespace ClientGen

/-- **What a command has done.** -/
structure Outcome where
  /-- Zero if all went well. -/
  exit : Nat
  /-- The lines about what was done. -/
  out : List String := []
  /-- The lines about problems. -/
  err : List String := []
  deriving DecidableEq, Repr

/-- **Why a command ends early.** -/
inductive CommandError where
  /-- There is no such language. -/
  | unsupportedLanguage (name : String)
  /-- No language is named. -/
  | noLanguage
  /-- One directory is given for several languages. -/
  | severalLanguages
  /-- There are no settings. -/
  | config (error : ConfigError)
  /-- There is no document. -/
  | load (error : Document.LoadError)
  /-- The document has errors. -/
  | diagnostics (count : Nat) (spec : String)
  /-- Two languages have one directory. -/
  | sharedDirectory (dir : String) (language : Language)
  /-- The files cannot be generated. -/
  | source (language : Language) (error : SourceError)
  /-- The paths of the files do not fit together. -/
  | plan (language : Language) (error : OutputError)
  /-- The files cannot be written. -/
  | output (error : OutputError)
  /-- The directory of the description cannot be made. -/
  | directory (fault : FileFault)
  /-- The description cannot be written. -/
  | description (fault : FileFault)
  deriving DecidableEq, Repr

/-- The wording of an error. -/
def CommandError.message : CommandError → String
  | .unsupportedLanguage name =>
    "Unsupported language \"" ++ name ++ "\". Available: " ++
      String.intercalate ", " (Language.all.map Language.id)
  | .noLanguage => "No languages resolved for generation."
  | .severalLanguages => "Use --out or --sdk only when generating a single language."
  | .config error => Config.errorMessage error
  | .load error => error.message
  | .diagnostics count spec =>
    "Aborting: " ++ Text.decimal count ++ " error diagnostic(s) in " ++ spec
  | .sharedDirectory dir language =>
    "Output directory " ++ dir ++ " is shared by more than one language (at " ++ language.id ++ ")"
  | .source language error => language.id ++ " backend failed: " ++ error.message
  | .plan language error => language.id ++ ": " ++ error.message
  | .output error => error.message
  | .directory fault => "Failed to create directory: " ++ fault.message
  | .description fault => "Failed to write IR: " ++ fault.message

namespace Command

/-! ## What is asked for -/

/-- The names in a list that is separated by commas, without blanks around them. -/
def languageNames (list : String) : List String :=
  ((list.toList.splitOnP (· == ',')).map Text.trim).filterMap fun name =>
    if name.isEmpty then none else some (String.ofList name)

/-- The language with a name. -/
def language (name : String) : Except CommandError Language :=
  match Language.named? name with
  | some language => .ok language
  | none => .error (.unsupportedLanguage name)

/-- **The languages that are named**, each of them once; all of them if none is asked for. -/
def languages (list : Option String) : Except CommandError (List Language) := do
  let list := String.ofList (Text.trim (list.getD "all").toList)
  if Text.lowerAscii list = "all" then return Language.all
  let named ← (languageNames list).mapM language
  if named.isEmpty then .error .noLanguage else return named.eraseDups

/-- The tag of operations that have none, unless there is a setting for it. -/
def usualTag : String :=
  "default"

/-- The description of a document. -/
def describeDocument (doc : Document) (tag : Option String) : Noted Api :=
  let described := doc.describe (tag.getD usualTag)
  ⟨described.value.api, described.notes⟩

/-- A description without errors. -/
def sound (spec : String) (described : Noted Api) : Except CommandError Api :=
  if Diagnostic.anyError described.notes then
    .error (.diagnostics (described.notes.countP (·.severity == .error)) spec)
  else .ok described.value

/-! ## Plans -/

/-- The first language whose directory another one before it has, if the languages before have some
directories. Directories are the same if they have the same components. -/
def shared? (before : List (List Path.Component)) :
    List (Language × String) → Option (Language × String)
  | [] => none
  | (language, dir) :: rest =>
    if Path.components dir ∈ before then some (language, dir)
    else shared? (Path.components dir :: before) rest

/-- The plan for the files of one language. -/
def planFor (api : Api) (language : Language) (dir : String) : Except CommandError OutputPlan := do
  let files ← (language.generate api none).mapError (.source language)
  (OutputPlan.ofFiles dir files).mapError (.plan language)

/-- **The plans for the files of several languages**, each in a directory of its own. -/
def plans (api : Api) (targets : List (Language × String)) :
    Except CommandError (List (Language × OutputPlan)) :=
  match shared? [] targets with
  | some (language, dir) => .error (.sharedDirectory dir language)
  | none =>
    targets.mapM fun (language, dir) => do
      let plan ← planFor api language dir
      return (language, plan)

/-! ## Commands -/

variable {m : Type → Type} [Monad m]

/-- The settings and the document. -/
def inputs [FileReader m] (config : Option String) (spec : String) :
    m (Except CommandError (Config × Document)) := do
  match ← Config.load config with
  | .error error => return .error (.config error)
  | .ok config =>
    match ← Document.load spec with
    | .error error => return .error (.load error)
    | .ok doc => return .ok (config, doc)

/-- The outcome of a command that ends early. -/
def failed (out err : List String) (error : CommandError) : Outcome :=
  { exit := 1, out, err := err ++ [error.message] }

/-- The line about the files of a plan. -/
def summaryLine (language : Language) (plan : OutputPlan) (summary : OutputPlan.Summary) : String :=
  "Generated " ++ Text.decimal summary.written ++ " " ++ language.id ++ " files in " ++ plan.dir

/-- The line about the time that a command took, in milliseconds. -/
def timeLine (elapsed : Nat) : String :=
  "Done in " ++
    if elapsed < 1000 then Text.decimal elapsed ++ "ms"
    else Text.decimal (elapsed / 1000) ++ "s " ++ Text.decimal (elapsed % 1000) ++ "ms"

/-- Carries out plans one after the other, until one fails. -/
def commitAll [FileStore m] :
    List (Language × OutputPlan) → m (List String × Option OutputError)
  | [] => return ([], none)
  | (language, plan) :: rest => do
    match ← (plan.commit : OutputPlan.Writing m OutputPlan.Summary).run with
    | .error error => return ([], some error)
    | .ok summary =>
      let (lines, error) ← commitAll rest
      return (summaryLine language plan summary :: lines, error)

/-- What can be settled before anything is read. -/
def wanted (options : GenerateOptions) : Except CommandError (List Language) := do
  let languages ← languages options.languages
  if (options.dir.isSome || options.sdk.isSome) && 1 < languages.length then
    .error .severalLanguages
  else return languages

/-- The directories of languages. -/
def targets (options : GenerateOptions) (config : Config) (languages : List Language) :
    List (Language × String) :=
  languages.map fun language => (language, config.outDir options.dir options.sdk language)

/-- The plans for the files of clients, once everything has been read. -/
def planned (options : GenerateOptions) (config : Config) (languages : List Language)
    (described : Noted Api) : Except CommandError (List (Language × OutputPlan)) := do
  let api ← sound options.spec described
  plans api (targets options config languages)

/-- **Generates the files of clients.** -/
def runGenerate [FileStore m] (elapsed : m Nat) (options : GenerateOptions) : m Outcome := do
  match wanted options with
  | .error error => return failed [] [] error
  | .ok languages =>
    match ← inputs options.config options.spec with
    | .error error => return failed [] [] error
    | .ok (config, doc) =>
      let described := describeDocument doc (options.defaultTag.or config.defaultTag)
      let err := described.notes.map Diagnostic.line
      match planned options config languages described with
      | .error error => return failed [] err error
      | .ok plans =>
        match ← commitAll plans with
        | (out, some error) => return failed out err (.output error)
        | (out, none) => return { exit := 0, out := out ++ [timeLine (← elapsed)], err }

/-- Writes the text of a description, with the directories above its file. -/
def writeDescription [FileStore m] (path text : String) : m (Except CommandError Unit) := do
  let made ←
    match Path.parent? path with
    | some "" => pure (.ok ())
    | some parent => FileStore.makeDirectories parent
    | none => pure (.ok ())
  match made with
  | .error fault => return .error (.directory fault)
  | .ok () =>
    match ← FileStore.writeText path text with
    | .error fault => return .error (.description fault)
    | .ok () => return .ok ()

/-- **Writes the description of an API.** -/
def runDescribe [FileStore m] (options : DescribeOptions) : m Outcome := do
  match ← inputs options.config options.spec with
  | .error error => return failed [] [] error
  | .ok (config, doc) =>
    let described := describeDocument doc (options.defaultTag.or config.defaultTag)
    let err := described.notes.map Diagnostic.line
    match sound options.spec described with
    | .error error => return failed [] err error
    | .ok api =>
      match ← writeDescription options.out api.print with
      | .error error => return failed [] err error
      | .ok () => return { exit := 0, out := ["Wrote IR to " ++ options.out], err }

/-- The lines that explain the command line. -/
def usage : List String :=
  ["Generate client SDKs from an OpenAPI 3.x document", "",
    "Usage: oapigen gen [--lang <LANGS>] --spec <PATH> [--sdk <NAME> | --out <DIR>]",
    "       oapigen gen:<LANG> --spec <PATH> [--sdk <NAME> | --out <DIR>]",
    "       oapigen ir --spec <PATH> --out <FILE>", "",
    "Further options: --default-tag <TAG>, --config <PATH>"]

/-- The outcome where there is no command. -/
def interrupted : Interruption → Outcome
  | .help => { exit := 0, out := usage }
  | .version => { exit := 0, out := ["oapigen 0.1.0"] }
  | .misuse => { exit := 1, err := "error: the arguments do not fit together" :: "" :: usage }

/-- **Carries out what arguments ask for.** -/
def run [FileStore m] (elapsed : m Nat) (args : List String) : m Outcome :=
  match parse args with
  | .error interruption => return interrupted interruption
  | .ok (.generate options) => runGenerate elapsed options
  | .ok (.describe options) => runDescribe options

end Command

end ClientGen
