import ClientGen.Files.Path

/-!
# Stores of files

What the program asks of the place where files are kept, and nothing else.

* `FileReader` — what can be found out.
* `FileStore` — what can be changed.
* `FileStore.makeDirectories` — a directory with everything above it.
* `FileStore.ask`, `FileStore.change` — requests to a store that is a value.

Files are named by the texts of their paths. A request that fails says whether something is missing,
or whether it was refused for another reason.
-/

namespace ClientGen

/-- **Why a request failed.** -/
inductive FileFault where
  /-- There is no such file or directory. -/
  | missing
  /-- Anything else. -/
  | refused
  deriving DecidableEq, Repr, Inhabited

/-- The wording of a failure. -/
def FileFault.message : FileFault → String
  | .missing => "no such file or directory"
  | .refused => "operation refused"

/-- **What can be found out about files.** -/
class FileReader (m : Type → Type) where
  /-- The text of a file. -/
  readText : (path : String) → m (Except FileFault String)
  /-- Whether there is a file. -/
  isFile : (path : String) → m Bool
  /-- Whether there is a directory. -/
  isDirectory : (path : String) → m Bool
  /-- Whether a directory has nothing in it. -/
  isEmpty : (path : String) → m (Except FileFault Bool)

/-- **What can be changed about files.** -/
class FileStore (m : Type → Type) extends FileReader m where
  /-- Makes a directory where there is nothing yet. -/
  makeDirectory : (path : String) → m (Except FileFault Unit)
  /-- Writes a file, which may be there or not. -/
  writeText : (path text : String) → m (Except FileFault Unit)
  /-- Removes a file. -/
  removeFile : (path : String) → m (Except FileFault Unit)
  /-- Removes a directory that has nothing in it. -/
  removeDirectory : (path : String) → m (Except FileFault Unit)

namespace FileStore

variable {m : Type → Type} [Monad m] [FileStore m]

/-- Success if there is a directory already, otherwise the failure to make one. -/
def unlessDirectory (path : String) (fault : FileFault) : m (Except FileFault Unit) := do
  if ← FileReader.isDirectory path then return .ok () else return .error fault

/-- Makes the first of several directories, each of which is inside the next one. Only where
something is missing are the others tried. The empty path is always there. -/
def makeDirectoriesFrom : List String → m (Except FileFault Unit)
  | [] => return .error .refused
  | path :: above => do
    if path = "" then return .ok ()
    match ← makeDirectory path with
    | .ok () => return .ok ()
    | .error .refused => unlessDirectory path .refused
    | .error .missing =>
      match ← makeDirectoriesFrom above with
      | .error fault => return .error fault
      | .ok () =>
        match ← makeDirectory path with
        | .ok () => return .ok ()
        | .error fault => unlessDirectory path fault

/-- **Makes a directory and everything above it**, as far as it is not there. -/
def makeDirectories (path : String) : m (Except FileFault Unit) :=
  makeDirectoriesFrom (Path.ancestors path)

/-! ## Stores that are values -/

variable {σ α : Type}

/-- What a change comes to: its outcome, and the store after it. A change that fails changes
nothing. -/
def changed (s : σ) (result : Except FileFault σ) : Except FileFault Unit × σ :=
  match result with
  | .ok s' => (.ok (), s')
  | .error fault => (.error fault, s)

/-- A change that may fail. -/
def change (f : σ → Except FileFault σ) : StateM σ (Except FileFault Unit) :=
  fun s => changed s (f s)

/-- A question. -/
def ask (f : σ → α) : StateM σ α :=
  fun s => (f s, s)

end FileStore

end ClientGen
