/-!
# Path texts

A path is a text: names separated by slashes. It is kept as it was written, and only the questions
asked of it look at its parts.

* `Path.components` — root, leading dot, double dots and names, in order.
* `Path.join` — a path below another one.
* `Path.parent?`, `Path.ancestors` — what is left without the last component.
* `Path.extension?` — the text after the last dot of the file name.
* `Path.contained?` — the names of a path that stays below its starting directory.

**What does not count.** Repeated slashes, trailing slashes and dots between names are no
components. A dot counts only at the very start of a relative path.
-/

namespace ClientGen.Path

/-- **A component of a path.** -/
inductive Component where
  /-- The leading slash of an absolute path. -/
  | root
  /-- A dot at the start of a relative path. -/
  | here
  /-- A double dot. -/
  | up
  /-- An ordinary name. -/
  | name (text : String)
  deriving DecidableEq, Repr

/-- A path starts at the root if it starts with a slash. -/
def isAbsolute (path : String) : Bool :=
  path.toList.head? == some '/'

/-- The texts between the slashes of a path, without the slash of the root. -/
def steps (path : String) : List (List Char) :=
  match path.toList with
  | '/' :: cs => cs.splitOnP (· == '/')
  | cs => cs.splitOnP (· == '/')

/-- Whether a text between slashes is no component of its own. -/
def isVoid (step : List Char) : Bool :=
  step = [] || step = ['.']

/-- The component of a text between slashes. -/
def component (step : List Char) : Component :=
  if step = ['.', '.'] then .up else .name (String.ofList step)

/-- Whether a path is relative and starts with a dot that stands alone. -/
def startsHere (path : String) : Bool :=
  !isAbsolute path && (steps path).head? == some ['.']

/-- **The components of a path.** -/
def components (path : String) : List Component :=
  let body := ((steps path).filter (!isVoid ·)).map component
  if isAbsolute path then .root :: body
  else if startsHere path then .here :: body
  else body

/-- **A path below another one.** An absolute path stands for itself, and an empty base adds
nothing. -/
def join (base path : String) : String :=
  if isAbsolute path then path
  else match base.toList.getLast? with
    | none => path
    | some '/' => base ++ path
    | some _ => base ++ "/" ++ path

/-- Join several paths, from left to right. -/
def joinAll (base : String) (paths : List String) : String :=
  paths.foldl join base

/-- The steps of a path, last one first, from the last component on. -/
def backToComponent (steps : List (List Char)) : List (List Char) :=
  steps.dropWhile isVoid

/-- **A path without its last component.** The empty path and the root have none. -/
def parent? (path : String) : Option String :=
  let text (front : List Char) (reversed : List (List Char)) : String :=
    String.ofList (front ++ List.intercalate ['/'] (backToComponent reversed).reverse)
  if isAbsolute path then
    match backToComponent (steps path).reverse with
    | [] => none
    | _ :: rest => some (text ['/'] rest)
  else if startsHere path then
    match backToComponent (steps path).tail.reverse with
    | [] => some ""
    | _ :: rest =>
      match backToComponent rest with
      | [] => some "."
      | rest => some (text ['.', '/'] rest)
  else
    match backToComponent (steps path).reverse with
    | [] => none
    | _ :: rest => some (text [] rest)

/-- The path, its parent, the parent's parent and so on, at most `count` of them. -/
def ancestorsUpTo : (count : Nat) → String → List String
  | 0, _ => []
  | count + 1, path =>
    path :: match parent? path with
      | some parent => ancestorsUpTo count parent
      | none => []

/-- **The path and everything above it**, nearest first. Each parent is shorter than its path. -/
def ancestors (path : String) : List String :=
  ancestorsUpTo (path.length + 1) path

/-- The name that a path ends with, unless it ends with a double dot or names nothing. -/
def fileName? (path : String) : Option String :=
  match (components path).getLast? with
  | some (.name text) => some text
  | _ => none

/-- **The extension of a path**: what follows the last dot of its file name, if something stands
before that dot. -/
def extension? (path : String) : Option String :=
  match fileName? path with
  | none => none
  | some name =>
    let reversed := name.toList.reverse
    match reversed.dropWhile (· != '.') with
    | _ :: _ :: _ => some (String.ofList (reversed.takeWhile (· != '.')).reverse)
    | _ => none

/-- Walk components from a place below the starting directory: `names` are the names down to that
place, innermost first. A root or a double dot above the start leaves the directory. -/
def walk? (names : List String) : List Component → Option (List String)
  | [] => some names.reverse
  | .root :: _ => none
  | .here :: rest => walk? names rest
  | .up :: rest =>
    match names with
    | [] => none
    | _ :: names => walk? names rest
  | .name text :: rest => walk? (text :: names) rest

/-- **The names of a path that stays below its starting directory**, not counting the directory
itself. -/
def contained? (path : String) : Option (List String) :=
  match walk? [] (components path) with
  | some (name :: names) => some (name :: names)
  | _ => none

/-- The text of a list of names. -/
def ofNames (names : List String) : String :=
  String.intercalate "/" names

@[simp] theorem walk?_nil (names : List String) : walk? names [] = some names.reverse := rfl

@[simp] theorem ancestorsUpTo_zero (path : String) : ancestorsUpTo 0 path = [] := rfl

end ClientGen.Path
