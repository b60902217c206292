import ClientGen.Files.Store

/-!
# Trees of files

A store of files as a value: every file and directory by its names from the root, and the directory
in which relative paths start. There are no links.

* `FileTree` — the tree; `FileTree.lookup?` says what stands at a place.
* `FileTree.locate` — the place that a path means.
* `FileTree.listing` — everything below a place.

**Paths** are followed step by step from the root or from the working directory, and every step is
made in a directory that is there. A dot stays, a double dot goes up. A path has at most 4095 bytes,
a name at most 255, and neither has a null character.

**A working directory that is gone** still has a way up. Nothing is found in it, not even after a
directory of the same name has been made in its place, but double dots lead out of it.
-/

namespace ClientGen

/-- **What stands at a place.** -/
inductive FileTree.Entry where
  /-- A file with its text. -/
  | file (text : String)
  /-- A directory. -/
  | directory
  deriving DecidableEq, Repr, Inhabited

/-- **A tree of files.** -/
structure FileTree where
  /-- The files and directories by their names from the root. -/
  entries : List (List String × FileTree.Entry) := []
  /-- The directory in which relative paths start. -/
  here : List String := []
  /-- How many of the innermost directories of `here` have been removed. -/
  gone : Nat := 0
  deriving Repr, DecidableEq

namespace FileTree

/-- **What stands at a place**, if anything does. The root is a directory. -/
def lookup? (t : FileTree) (place : List String) : Option Entry :=
  if place = [] then some .directory else t.entries.lookup place

/-- Without what stands at a place. -/
def erase (place : List String) (t : FileTree) : FileTree :=
  { t with entries := t.entries.filter fun e => e.1 != place }

/-- With something else at a place. -/
def put (place : List String) (entry : Entry) (t : FileTree) : FileTree :=
  { t with entries := (place, entry) :: (t.erase place).entries }

/-- What is left of the working directory: the innermost part of it that has not been removed. -/
def home (t : FileTree) : List String :=
  t.here.take (t.here.length - t.gone)

/-- Without the directory at a place, which may be what is left of the working directory. -/
def vacate (place : List String) (t : FileTree) : FileTree :=
  { t.erase place with gone := if place = t.home then t.gone + 1 else t.gone }

/-- Whether nothing stands directly below a place. -/
def isEmptyAt (t : FileTree) (place : List String) : Bool :=
  !t.entries.any fun e => e.1 != [] && e.1.dropLast == place

/-- **Everything below a place**, by the names from there, in no particular order. -/
def listing (t : FileTree) (place : List String) : List (List String × Entry) :=
  t.entries.filterMap fun e =>
    if place.isPrefixOf e.1 && e.1 != place then some (e.1.drop place.length, e.2) else none

/-! ## Paths -/

/-- Whether a text has too many bytes to be a name. -/
def isLongName (name : String) : Bool :=
  255 < name.utf8ByteSize

/-- A step of a path from a place, which has to be a directory. -/
def step (t : FileTree) (place : List String) (step : List Char) :
    Except FileFault (List String) :=
  match t.lookup? place with
  | none => .error .missing
  | some (.file _) => .error .refused
  | some .directory =>
    if step = [] ∨ step = ['.'] then .ok place
    else if step = ['.', '.'] then .ok place.dropLast
    else if isLongName (String.ofList step) then .error .refused
    else .ok (place ++ [String.ofList step])

/-- The way out of directories that are gone, from a place so many levels inside them: where it
ends, and the steps that are left then. -/
def climb : (levels : Nat) → (place : List String) → (steps : List (List Char)) →
    Except FileFault (List String × List (List Char))
  | 0, place, steps => .ok (place, steps)
  | _ + 1, _, [] => .error .missing
  | levels + 1, place, step :: steps =>
    if Path.isVoid step then climb (levels + 1) place steps
    else if step = ['.', '.'] then climb levels place.dropLast steps
    else .error .missing

/-- Where the steps of a path start, and those that are left there. -/
def start (t : FileTree) (path : String) (steps : List (List Char)) :
    Except FileFault (List String × List (List Char)) :=
  if Path.isAbsolute path then .ok ([], steps) else climb t.gone t.here steps

/-- The place after some steps of a path. -/
def route (t : FileTree) (path : String) (steps : List (List Char)) :
    Except FileFault (List String) := do
  let (place, steps) ← t.start path steps
  steps.foldlM t.step place

/-- The place after some steps of a path, whose text has to be acceptable. -/
def walk (t : FileTree) (path : String) (steps : List (List Char)) :
    Except FileFault (List String) :=
  if path = "" then .error .missing
  else if path.toList.contains '\x00' || 4096 ≤ path.utf8ByteSize then .error .refused
  else t.route path steps

/-- **The place that a path means.** Something may stand there or not, but it is in a directory. -/
def locate (t : FileTree) (path : String) : Except FileFault (List String) :=
  t.walk path (Path.steps path)

/-- The place of a directory that is about to be made, whose path may end with slashes. -/
def locateNew (t : FileTree) (path : String) : Except FileFault (List String) :=
  t.walk path ((Path.steps path).reverse.dropWhile (· == [])).reverse

/-! ## Questions and changes -/

/-- What stands at the place that a path means. -/
def find (t : FileTree) (path : String) : Except FileFault (List String × Entry) := do
  let place ← t.locate path
  match t.lookup? place with
  | some entry => return (place, entry)
  | none => .error .missing

/-- The text of a file. -/
def readText (t : FileTree) (path : String) : Except FileFault String := do
  match ← t.find path with
  | (_, .file text) => return text
  | (_, .directory) => .error .refused

/-- Whether there is a file. -/
def isFile (t : FileTree) (path : String) : Bool :=
  (t.find path).toOption.any fun found => found.2 matches .file _

/-- Whether there is a directory. -/
def isDirectory (t : FileTree) (path : String) : Bool :=
  (t.find path).toOption.any fun found => found.2 = .directory

/-- Whether a directory has nothing in it. -/
def isEmpty (t : FileTree) (path : String) : Except FileFault Bool := do
  match ← t.find path with
  | (place, .directory) => return t.isEmptyAt place
  | (_, .file _) => .error .refused

/-- With one more directory. -/
def makeDirectory (path : String) (t : FileTree) : Except FileFault FileTree := do
  let place ← t.locateNew path
  match t.lookup? place with
  | none => return t.put place .directory
  | some _ => .error .refused

/-- With a text in a file, which may be there or not. -/
def writeText (path text : String) (t : FileTree) : Except FileFault FileTree := do
  let place ← t.locate path
  match t.lookup? place with
  | some .directory => .error .refused
  | _ => return t.put place (.file text)

/-- Without a file. -/
def removeFile (path : String) (t : FileTree) : Except FileFault FileTree := do
  match ← t.find path with
  | (place, .file _) => return t.erase place
  | (_, .directory) => .error .refused

/-- Without a directory that has nothing in it. -/
def removeDirectory (path : String) (t : FileTree) : Except FileFault FileTree := do
  match ← t.find path with
  | (place, .directory) =>
    if place ≠ [] ∧ t.isEmptyAt place then return t.vacate place else .error .refused
  | (_, .file _) => .error .refused

instance : FileStore (StateM FileTree) where
  readText path := FileStore.ask (·.readText path)
  isFile path := FileStore.ask (·.isFile path)
  isDirectory path := FileStore.ask (·.isDirectory path)
  isEmpty path := FileStore.ask (·.isEmpty path)
  makeDirectory path := FileStore.change (makeDirectory path)
  writeText path text := FileStore.change (writeText path text)
  removeFile path := FileStore.change (removeFile path)
  removeDirectory path := FileStore.change (removeDirectory path)

/-! ## Laws -/

@[simp] theorem lookup?_nil (t : FileTree) : t.lookup? [] = some .directory := rfl

@[simp] theorem here_put (place : List String) (entry : Entry) (t : FileTree) :
    (t.put place entry).here = t.here := rfl

@[simp] theorem here_erase (place : List String) (t : FileTree) :
    (t.erase place).here = t.here := rfl

theorem lookup_filter_ne {α : Type} (place other : List String) (es : List (List String × α)) :
    (es.filter fun e => e.1 != place).lookup other =
      if other = place then none else es.lookup other := by
  induction es with
  | nil => simp
  | cons e es ih =>
    obtain ⟨k, v⟩ := e
    by_cases hk : k = place
    · rw [List.filter_cons_of_neg (by simp [hk]), ih]
      by_cases ho : other = place
      · simp [ho]
      · have hb : (other == k) = false := by simpa [hk] using ho
        simp [ho, List.lookup_cons, hb]
    · rw [List.filter_cons_of_pos (by simp [hk])]
      by_cases ho : other = k
      · simp [ho, hk]
      · have hb : (other == k) = false := by simpa using ho
        simp [List.lookup_cons, hb, ih]

theorem lookup?_erase {place : List String} (h : place ≠ []) (t : FileTree) (other : List String) :
    (t.erase place).lookup? other = if other = place then none else t.lookup? other := by
  by_cases ho : other = []
  · simp [ho, h.symm]
  · simp [lookup?, ho, erase, lookup_filter_ne]

theorem lookup?_put {place : List String} (h : place ≠ []) (entry : Entry) (t : FileTree)
    (other : List String) :
    (t.put place entry).lookup? other = if other = place then some entry else t.lookup? other := by
  by_cases ho : other = []
  · simp [ho, h.symm]
  · by_cases hp : other = place
    · simp [lookup?, put, hp, h]
    · have hb : (other == place) = false := by simpa using hp
      simp [lookup?, put, ho, hp, hb, erase, lookup_filter_ne, List.lookup_cons]

end FileTree

end ClientGen
