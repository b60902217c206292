/-!
# Generated files

* `SourceFile` — a file, by its path below the output directory.
* `SourceFile.finished` — the files of a client: formatted, in ascending order of their paths, no
  path twice.
-/

namespace ClientGen

/-- **A generated file.** -/
structure SourceFile where
  /-- The path below the output directory. -/
  path : String
  /-- The text. -/
  contents : String
  deriving DecidableEq, Repr, Inhabited

/-- A formatter takes a path and a text to another text, or says why it cannot. -/
abbrev Formatter := String → String → Except String String

/-- **Why a client cannot be generated.** -/
inductive SourceError where
  /-- The formatter refused a file. -/
  | formatter (path message : String)
  /-- Two files have one path. -/
  | duplicatePath (path : String)
  deriving DecidableEq, Repr, Inhabited

/-- The wording of an error. -/
def SourceError.message : SourceError → String
  | .formatter path message => "formatter failed on " ++ path ++ ": " ++ message
  | .duplicatePath path => "duplicate generated path " ++ path

namespace SourceFile

/-- A formatted file. -/
def format (formatter : Option Formatter) (file : SourceFile) : Except SourceError SourceFile :=
  match formatter with
  | none => .ok file
  | some formatter =>
    match formatter file.path file.contents with
    | .ok contents => .ok { file with contents }
    | .error message => .error (.formatter file.path message)

/-- The first path that is the same as the one after it. -/
def repeated? : List SourceFile → Option String
  | a :: b :: files => if a.path = b.path then some a.path else repeated? (b :: files)
  | _ => none

/-- **The files of a client.** -/
def finished (formatter : Option Formatter) (files : List SourceFile) :
    Except SourceError (List SourceFile) := do
  let formatted ← files.mapM (format formatter)
  let files := formatted.mergeSort fun a b => decide (a.path ≤ b.path)
  match repeated? files with
  | some path => .error (.duplicatePath path)
  | none => return files

end SourceFile

end ClientGen
