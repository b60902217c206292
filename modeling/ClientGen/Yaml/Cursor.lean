import ClientGen.Reading
import ClientGen.Yaml.Value

/-!
# Reading data from YAML texts

* `Cursor` — a node of a tree, and how many lists and maps may still be entered there.
* `Following` — a reading that counts the repetitions it has followed.
* `Cursor.ofText?` — what a reader makes of a whole text.

**Limits.** Nodes may nest 128 deep along the way of a reading. It may follow a hundred repetitions
for each part of the text, which keeps a short text from standing for an enormous one.

**Leniency.** Where a text is expected, any scalar will do. Where a list, a map or a record is
expected, an empty plain scalar is an empty one. Tags matter only where any value is expected, or a
value that may be null.
-/

namespace ClientGen.Yaml

/-- **A reading that counts the repetitions it has followed**, and may fail. -/
abbrev Following := StateT Nat Option

/-- **A place in a tree.** -/
structure Cursor where
  /-- The tree. -/
  tree : Tree
  /-- The node that stands there. -/
  node : Node
  /-- How many lists and maps may still be entered. -/
  room : Nat

namespace Cursor

variable {α : Type}

/-- A failed reading. -/
def refuse : Following α :=
  fun _ => none

/-- A reading that may be impossible. -/
def attempt (result : Option α) : Following α :=
  fun followed => result.map fun a => (a, followed)

/-- One more repetition, if there have not been too many. -/
def followOne (tree : Tree) : Following Unit :=
  fun followed => if followed < tree.size * 100 then some ((), followed + 1) else none

/-- A node, or the one that it repeats. -/
def follow (tree : Tree) : Node → Following Node
  | .alias number => do
    followOne tree
    attempt (tree.named.lookup number)
  | node => return node

/-- The node at a place, or the one that it repeats. -/
def here (c : Cursor) : Following Node :=
  follow c.tree c.node

/-- The room inside a list or a map. -/
def enter : (room : Nat) → Following Nat
  | 0 => refuse
  | room + 1 => return room

/-- Whether a node is an empty plain scalar. -/
def isBlank : Node → Bool
  | .scalar _ .plain text => text.isEmpty
  | _ => false

/-- Whether a plain scalar stands for nothing. A tag may say that it does, or that it does not. -/
def isAbsent? (tag : Option String) (text : String) : Option Bool :=
  match tag with
  | none => some (text.isEmpty || Scalar.isNull text)
  | some tag =>
    if tag = Scalar.coreTag "null" then if Scalar.isNull text then some true else none
    else some false

/-- Nothing where a null stands. -/
def optional (read : Cursor → Following α) (c : Cursor) : Following (Option α) := do
  let node ← c.here
  let absent ←
    match node with
    | .scalar label .plain text => attempt (isAbsent? label.tag text)
    | _ => pure false
  if absent then return none
  return some (← read { c with node })

/-- The text of a scalar. -/
def text (c : Cursor) : Following String := do
  match ← c.here with
  | .scalar _ _ text => return text
  | _ => refuse

/-- A truth value, plain, or as a block that is tagged as one. -/
def flag (c : Cursor) : Following Bool := do
  match ← c.here with
  | .scalar _ .plain text => attempt (Scalar.flag? text)
  | .scalar label .literal text =>
    if label.tag = some (Scalar.coreTag "bool") then attempt (Scalar.flag? text) else refuse
  | _ => refuse

/-- A list. -/
def list (read : Cursor → Following α) (c : Cursor) : Following (List α) := do
  match ← c.here with
  | .list _ items =>
    let room ← enter c.room
    items.mapM fun node => read { c with node, room }
  | node => if isBlank node then return [] else refuse

/-- A map. -/
def map (read : Cursor → Following α) (c : Cursor) : Following (OrderedMap α) := do
  match ← c.here with
  | .map _ entries =>
    let room ← enter c.room
    let entries ← entries.mapM fun (key, node) => do
      let name ← text { c with node := key, room }
      let value ← read { c with node, room }
      return (name, value)
    return OrderedMap.ofEntries entries
  | node => if isBlank node then return [] else refuse

/-- Fields by their names: the record and the names that were there. -/
def namedFields (type : Record Cursor Following α) (c : Cursor) (record : α) (seen : List String) :
    List (Node × Node) → Following (α × List String)
  | [] => return (record, seen)
  | (key, node) :: entries => do
    let name ← text { c with node := key }
    match type.field? name with
    | none => namedFields type c record seen entries
    | some field =>
      if name ∈ seen then refuse
      else
        let change ← field.read { c with node }
        namedFields type c (change record) (name :: seen) entries

/-- Whether all fields that have to be there are there. -/
def isComplete (type : Record Cursor Following α) (seen : List String) : Bool :=
  type.fields.all fun field => field.absence != .refused || seen.contains field.name

/-- A record. -/
def record (type : Record Cursor Following α) (c : Cursor) : Following α := do
  let entries ←
    match ← c.here with
    | .map _ entries => pure (some entries)
    | node => if isBlank node then pure none else refuse
  let (record, seen) ←
    match entries with
    | some entries =>
      let room ← enter c.room
      namedFields type { c with room } type.blank [] entries
    | none => pure (type.blank, [])
  if isComplete type seen then return record else refuse

/-- Whether a collection has a tag that is known only locally. -/
def isLocal (label : Label) : Bool :=
  label.tag.any (·.startsWith "!")

/-- Any value below a number of lists and maps. -/
def valueIn (tree : Tree) (room : Nat) (node : Node) : Following Json := do
  match ← follow tree node with
  | .scalar label style text => attempt (Scalar.value? label.tag style text)
  | .list label items =>
    match room with
    | 0 => refuse
    | room + 1 => if isLocal label then refuse else return .array (← items.mapM (valueIn tree room))
  | .map label entries =>
    match room with
    | 0 => refuse
    | room + 1 =>
      if isLocal label then refuse
      else
        let members ← entries.mapM fun (key, node) => do
          let name ← text ⟨tree, key, room⟩
          let value ← valueIn tree room node
          return (name, value)
        return .object members
  | .alias _ => refuse

/-- Any value. -/
def value (c : Cursor) : Following Json :=
  valueIn c.tree c.room c.node

instance : Readable Cursor Following where
  optional := optional
  text := text
  flag := flag
  list := list
  map := map
  record := record
  value := value

/-- How deep nodes may nest. -/
def depthLimit : Nat :=
  128

/-- **What a reader makes of a whole text.** -/
def ofText? (read : Cursor → Following α) (text : String) : Option α := do
  let tree ← Tree.parse? text
  let (result, _) ← (read ⟨tree, tree.root, depthLimit⟩).run 0
  return result

end Cursor

end ClientGen.Yaml
