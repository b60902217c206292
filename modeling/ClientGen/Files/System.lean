import ClientGen.Files.Tree

/-!
# File systems

A tree of files in which not everything may be done, and in which a file may have several names.

* `Rights` — what may be done with an entry.
* `FileSystem` — a tree, the rights of its entries, and the files that have several names.
* `FileSystem.passes` — whether all directories may be searched in which steps of a path are made.
* `FileSystem.others` — the other names of a file.

What stands where is up to the tree. A request has the result that it has in the tree, or it is
refused because a right is missing. Something that is missing is reported as missing first, as far
as it can be found out by following the path.

**Rights.** A step of a path is made in a directory that may be searched. An entry can be made where
its directory may be written, and it can be removed if that holds and it may be removed itself,
which covers places that hold on to their entries. A file that is there is written by its own right.

**Names.** A file that is written has the new text under all of its names. Removing takes away one
name and leaves the others. Whatever is made is new: it has one name, and the rights that new things
get.

**A working directory that is gone** has no rights any more. Whether it could be searched is not
asked when a path leads out of it.
-/

namespace ClientGen

/-- **What may be done with an entry.** -/
structure Rights where
  /-- A file may be read, or a directory looked into. -/
  read : Bool := true
  /-- A file may be written, or entries made in a directory and removed from it. -/
  write : Bool := true
  /-- Paths may lead through a directory. -/
  search : Bool := true
  /-- The entry may be removed from its directory. -/
  remove : Bool := true
  deriving DecidableEq, Repr, Inhabited

/-- **A file system.** -/
structure FileSystem where
  /-- What stands where. -/
  tree : FileTree := {}
  /-- The rights of entries. Where none are stated, everything may be done. -/
  rights : List (List String × Rights) := []
  /-- The rights of what is made. -/
  fresh : Rights := {}
  /-- The places of files with several names: the names of one file have one number. -/
  numbers : List (List String × Nat) := []
  deriving Repr, DecidableEq

namespace FileSystem

/-- The rights of what stands at a place. -/
def rightsAt (s : FileSystem) (place : List String) : Rights :=
  (s.rights.lookup place).getD {}

/-- **The other names of the file at a place.** -/
def others (s : FileSystem) (place : List String) : List (List String) :=
  match s.numbers.lookup place with
  | none => []
  | some number => (s.numbers.map (·.1)).filter fun other =>
      other != place && s.numbers.lookup other == some number

/-- Without anything said about a place. -/
def forget (place : List String) (s : FileSystem) : FileSystem :=
  { s with
    rights := s.rights.filter fun e => e.1 != place
    numbers := s.numbers.filter fun e => e.1 != place }

/-- With something new at a place. -/
def renew (place : List String) (s : FileSystem) : FileSystem :=
  { s.forget place with rights := (place, s.fresh) :: (s.forget place).rights }

/-! ## Paths -/

/-- Whether all directories may be searched in which steps are made from a place on. What cannot be
followed any further does not ask for more. -/
def passesFrom (s : FileSystem) : (place : List String) → (steps : List (List Char)) → Bool
  | _, [] => true
  | place, step :: steps =>
    (step == [] || (s.rightsAt place).search) &&
      match s.tree.step place step with
      | .ok next => passesFrom s next steps
      | .error _ => true

/-- **Whether all directories may be searched in which the steps of a path are made.** -/
def passes (s : FileSystem) (path : String) : Bool :=
  match s.tree.start path (Path.steps path) with
  | .ok (place, steps) => s.passesFrom place steps
  | .error _ => true

/-- The result of a request, if something is allowed. -/
def allow {α : Type} (allowed : Bool) (result : Except FileFault α) : Except FileFault α :=
  if allowed then result else .error .refused

/-! ## Questions and changes -/

/-- The result of a question in the tree about what stands at the place of a path, which has to be
readable. -/
def reading {α : Type} (question : FileTree → String → Except FileFault α) (s : FileSystem)
    (path : String) : Except FileFault α :=
  allow (s.passes path) do
    let (place, _) ← s.tree.find path
    allow (s.rightsAt place).read (question s.tree path)

/-- The text of a file. -/
def readText (s : FileSystem) (path : String) : Except FileFault String :=
  s.reading FileTree.readText path

/-- Whether there is a file. -/
def isFile (s : FileSystem) (path : String) : Bool :=
  s.passes path && s.tree.isFile path

/-- Whether there is a directory. -/
def isDirectory (s : FileSystem) (path : String) : Bool :=
  s.passes path && s.tree.isDirectory path

/-- Whether a directory has nothing in it. -/
def isEmpty (s : FileSystem) (path : String) : Except FileFault Bool :=
  s.reading FileTree.isEmpty path

/-- Whether entries may be made or removed next to a place. -/
def opens (s : FileSystem) (place : List String) : Bool :=
  (s.rightsAt place.dropLast).write

/-- With one more directory. -/
def makeDirectory (path : String) (s : FileSystem) : Except FileFault FileSystem :=
  allow (s.passes path) do
    let place ← s.tree.locateNew path
    let tree ← s.tree.makeDirectory path
    allow (s.opens place) (.ok { s.renew place with tree })

/-- With a text in a file, which may be there or not. -/
def writeText (path text : String) (s : FileSystem) : Except FileFault FileSystem :=
  allow (s.passes path) do
    let place ← s.tree.locate path
    let tree ← s.tree.writeText path text
    match s.tree.lookup? place with
    | none => allow (s.opens place) (.ok { s.renew place with tree })
    | some _ =>
      let tree := (s.others place).foldl (fun tree other => tree.put other (.file text)) tree
      allow (s.rightsAt place).write (.ok { s with tree })

/-- Without what stands at the place of a path, as the tree removes it. -/
def removing (change : String → FileTree → Except FileFault FileTree) (path : String)
    (s : FileSystem) : Except FileFault FileSystem :=
  allow (s.passes path) do
    let (place, _) ← s.tree.find path
    let tree ← change path s.tree
    allow (s.opens place && (s.rightsAt place).remove) (.ok { s.forget place with tree })

/-- Without a name of a file. -/
def removeFile (path : String) (s : FileSystem) : Except FileFault FileSystem :=
  s.removing FileTree.removeFile path

/-- Without a directory that has nothing in it. -/
def removeDirectory (path : String) (s : FileSystem) : Except FileFault FileSystem :=
  s.removing FileTree.removeDirectory path

instance : FileStore (StateM FileSystem) where
  readText path := FileStore.ask (·.readText path)
  isFile path := FileStore.ask (·.isFile path)
  isDirectory path := FileStore.ask (·.isDirectory path)
  isEmpty path := FileStore.ask (·.isEmpty path)
  makeDirectory path := FileStore.change (makeDirectory path)
  writeText path text := FileStore.change (writeText path text)
  removeFile path := FileStore.change (removeFile path)
  removeDirectory path := FileStore.change (removeDirectory path)

end FileSystem

end ClientGen
