import ClientGen.Output.Manifest
import ClientGen.Sdk.File

/-!
# Output

The files of a client go below one directory. All paths are checked before anything is written; then
the files of the last run are removed, and the new files and their manifest are written.

* `OutputPlan` — what will be written, and where.
* `OutputPlan.ofFiles` — the plan for some files, or what is wrong with their paths.
* `OutputPlan.clean` — removes what the manifest of a directory lists.
* `OutputPlan.commit` — cleans a directory and writes the files of a plan.

**Cleaning** removes the listed files and then every directory above one of them, up to the output
directory, that has nothing left in it. Listed paths that lead out of the directory are passed over,
and so are files that are gone.
-/

namespace ClientGen

/-- What was tried when a request failed. -/
inductive OutputAction where
  /-- A directory was to be made. -/
  | createDirectory
  /-- A file was to be written. -/
  | write
  /-- A file was to be removed. -/
  | remove
  /-- A directory was to be looked into. -/
  | readDirectory
  /-- A directory was to be removed. -/
  | removeDirectory
  deriving DecidableEq, Repr, Inhabited

/-- The wording of what was tried. -/
def OutputAction.name : OutputAction → String
  | .createDirectory => "create directory"
  | .write => "write"
  | .remove => "remove"
  | .readDirectory => "read directory"
  | .removeDirectory => "remove directory"

/-- **Why files cannot be written.** -/
inductive OutputError where
  /-- A path names nothing below the directory. -/
  | escapingPath (path : String)
  /-- Two paths mean one file, or a path means the manifest. -/
  | duplicatePath (path : String)
  /-- A request failed. -/
  | store (action : OutputAction) (path : String) (fault : FileFault)
  deriving DecidableEq, Repr, Inhabited

/-- The wording of an error. -/
def OutputError.message : OutputError → String
  | .escapingPath path => "Generated path escapes output dir: " ++ path
  | .duplicatePath path => "Duplicate generated path: " ++ path
  | .store action path fault =>
    "Failed to " ++ action.name ++ " " ++ path ++ ": " ++ fault.message

/-- **What will be written.** -/
structure OutputPlan where
  /-- The directory. -/
  dir : String
  /-- The texts of the files, by their names from the directory. -/
  files : List (List String × String)
  /-- The manifest. -/
  manifest : Manifest
  deriving Repr, DecidableEq

namespace OutputPlan

/-! ## Plans -/

/-- The names of a file that none of the files before it has, and the manifest has neither. -/
def place (before : List (List String)) (file : SourceFile) : Except OutputError (List String) :=
  match Path.contained? file.path with
  | none => .error (.escapingPath file.path)
  | some names =>
    if names = [Manifest.fileName] ∨ names ∈ before then .error (.duplicatePath file.path)
    else .ok names

/-- The files by their names, after some others. -/
def placed (before : List (List String)) :
    List SourceFile → Except OutputError (List (List String × String))
  | [] => .ok []
  | file :: files => do
    let names ← place before file
    let rest ← placed (names :: before) files
    return (names, file.contents) :: rest

/-- **The plan for some files below a directory.** -/
def ofFiles (dir : String) (files : List SourceFile) : Except OutputError OutputPlan := do
  let placed ← placed [] files
  let listed := (files.map (·.path)).mergeSort fun a b => decide (a ≤ b)
  return { dir, files := placed, manifest := { files := listed } }

/-! ## Cleaning -/

/-- The path of names below a directory. -/
def target (dir : String) (names : List String) : String :=
  Path.join dir (Path.ofNames names)

/-- The directories above names, without the outermost one. -/
def above (names : List String) : List (List String) :=
  (List.range' 1 (names.length - 1)).map names.take

/-- The names of the listed files that are below the directory. -/
def listedNames (manifest : Manifest) : List (List String) :=
  manifest.files.filterMap Path.contained?

/-- Whether a directory comes before another one: deeper ones come first, then those with lower
names. -/
def isBefore (a b : List String) : Bool :=
  b.length < a.length || (a.length == b.length && !b.lex a fun s t => decide (s < t))

/-- **The directories that may be left empty**, deepest ones first. -/
def emptied (listed : List (List String)) : List (List String) :=
  ((listed.flatMap above).eraseDups).mergeSort isBefore

variable {m : Type → Type} [Monad m] [FileStore m]

/-- A step of writing, which may fail. -/
abbrev Writing (m : Type → Type) (α : Type) :=
  ExceptT OutputError m α

/-- A request as a step of writing. -/
def attempt {α : Type} (action : OutputAction) (path : String) (request : m (Except FileFault α)) :
    Writing m α :=
  ExceptT.mk do
    match ← request with
    | .ok a => return .ok a
    | .error fault => return .error (.store action path fault)

/-- Removes a file, and says whether it was there. -/
def removeListed (path : String) : Writing m Bool :=
  ExceptT.mk do
    match ← FileStore.removeFile path with
    | .ok () => return .ok true
    | .error .missing => return .ok false
    | .error fault => return .error (.store .remove path fault)

/-- Whether a directory is there and has nothing in it. -/
def isEmptied (path : String) : Writing m Bool :=
  ExceptT.mk do
    match ← FileReader.isEmpty path with
    | .ok empty => return .ok empty
    | .error .missing => return .ok false
    | .error fault => return .error (.store .readDirectory path fault)

/-- Removes a directory if it has nothing in it. -/
def prune (path : String) : Writing m Unit := do
  if ← isEmptied path then
    attempt .removeDirectory path (FileStore.removeDirectory path)

/-- Removes files below a directory, and counts those that were there. -/
def removeAll (dir : String) : List (List String) → Writing m Nat
  | [] => return 0
  | names :: rest => do
    let found ← removeListed (target dir names)
    let count ← removeAll dir rest
    return if found then count + 1 else count

/-- Removes those of several directories that have nothing in them. -/
def pruneAll (dir : String) : List (List String) → Writing m Unit
  | [] => return ()
  | names :: rest => do
    prune (target dir names)
    pruneAll dir rest

/-- **Removes what the manifest of a directory lists**, and counts the files. Without a readable
manifest there is nothing to remove. -/
def clean (dir : String) : Writing m Nat := do
  match ← (Manifest.read? dir : m (Option Manifest)) with
  | none => return 0
  | some manifest =>
    let listed := listedNames manifest
    let count ← removeAll dir listed
    pruneAll dir (emptied listed)
    return count

/-! ## Writing -/

/-- **What has been done.** -/
structure Summary where
  /-- The number of files that were removed. -/
  removed : Nat
  /-- The number of files that were written. -/
  written : Nat
  deriving DecidableEq, Repr, Inhabited

/-- Writes a file, with the directories above it. -/
def writeFile (path text : String) : Writing m Unit := do
  match Path.parent? path with
  | some parent => attempt .createDirectory parent (FileStore.makeDirectories parent)
  | none => pure ()
  attempt .write path (FileStore.writeText path text)

/-- Writes several files below a directory. -/
def writeAll (dir : String) : List (List String × String) → Writing m Unit
  | [] => return ()
  | (names, text) :: rest => do
    writeFile (target dir names) text
    writeAll dir rest

/-- **Removes the files of the last run and writes those of a plan.** -/
def commit (plan : OutputPlan) : Writing m Summary := do
  let removed ← clean plan.dir
  writeAll plan.dir plan.files
  attempt .createDirectory plan.dir (FileStore.makeDirectories plan.dir)
  let path := Path.join plan.dir Manifest.fileName
  attempt .write path (FileStore.writeText path plan.manifest.text)
  return { removed, written := plan.files.length }

end OutputPlan

end ClientGen
