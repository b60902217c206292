import ClientGen.OrderedMap
import ClientGen.Yaml.Token

/-!
# The tree of a YAML text

* `Node` — scalars, lists, maps, and repetitions of named nodes.
* `Tree` — the outermost node, and all nodes that have a name.
* `Tree.ofTokens?` — the tree of a list of tokens, or nothing if they do not fit together.
* `Tree.parse?` — the tree of a text.

A text holds at most one tree. A text that holds none stands for an empty scalar.

**Building.** Tokens are taken one by one. The collections that are still open form a stack, and a
*place* says what may come next in the innermost one. A node may be left out in many places; that it
was shows only at the next token, and then an empty scalar takes its place.

**Names.** A named node is known by a number: how many names there have been when it starts. A
repetition means the last node with the number that its name had at that point.
-/

namespace ClientGen.Yaml

/-- What a node says about itself. -/
structure Label where
  /-- The number of its name. -/
  number : Option Nat := none
  /-- Its type. -/
  tag : Option String := none
  deriving Repr, DecidableEq

/-- **A node.** -/
inductive Node where
  /-- The repetition of a named node. -/
  | alias (number : Nat)
  /-- A scalar. -/
  | scalar (label : Label) (style : Style) (text : String)
  /-- A list. -/
  | list (label : Label) (items : List Node)
  /-- A map, with its entries in order. -/
  | map (label : Label) (entries : List (Node × Node))

/-- **The tree of a text.** -/
structure Tree where
  /-- The outermost node. -/
  root : Node
  /-- The named nodes by their numbers, the last one first. -/
  named : List (Nat × Node)
  /-- The number of its scalars and repetitions, collections counted twice. -/
  size : Nat

namespace Node

/-- A scalar that was left out. -/
def empty (label : Label) : Node :=
  .scalar label .plain ""

/-- What a node says about itself. -/
def label : Node → Label
  | .alias _ => {}
  | .scalar label _ _ => label
  | .list label _ => label
  | .map label _ => label

/-- The node with its number, if it has a name. -/
def entry (node : Node) : List (Nat × Node) :=
  node.label.number.toList.map fun number => (number, node)

mutual

/-- The named nodes in a tree, in the order of their starts, before others. -/
def named (after : List (Nat × Node)) : Node → List (Nat × Node)
  | .alias _ => after
  | .scalar label style text => entry (.scalar label style text) ++ after
  | .list label items => entry (.list label items) ++ namedItems after items
  | .map label entries => entry (.map label entries) ++ namedEntries after entries

/-- The named nodes in a list. -/
def namedItems (after : List (Nat × Node)) : List Node → List (Nat × Node)
  | [] => after
  | node :: nodes => named (namedItems after nodes) node

/-- The named nodes in a map. -/
def namedEntries (after : List (Nat × Node)) : List (Node × Node) → List (Nat × Node)
  | [] => after
  | (key, value) :: entries => named (named (namedEntries after entries) value) key

end

end Node

/-! ## Collections under construction -/

namespace Tree

/-- A list with the items so far, the last one first. -/
structure OpenList where
  /-- What it says about itself. -/
  label : Label
  /-- Its items. -/
  items : List Node := []

/-- A map with the entries so far, the last one first. -/
structure OpenMap where
  /-- What it says about itself. -/
  label : Label
  /-- Its entries. -/
  entries : List (Node × Node) := []

/-- The finished list. -/
def OpenList.close (l : OpenList) : Node :=
  .list l.label l.items.reverse

/-- The finished map. -/
def OpenMap.close (m : OpenMap) : Node :=
  .map m.label m.entries.reverse

/-- With one more item. -/
def OpenList.add (item : Node) (l : OpenList) : OpenList :=
  { l with items := item :: l.items }

/-- With a map of one entry as one more item. -/
def OpenList.addPair (key value : Node) (l : OpenList) : OpenList :=
  l.add (.map {} [(key, value)])

/-- With one more entry. -/
def OpenMap.add (key value : Node) (m : OpenMap) : OpenMap :=
  { m with entries := (key, value) :: m.entries }

/-- What has been said about a node before it starts. -/
structure Marks where
  /-- Its name. -/
  anchor : Option String := none
  /-- Its type, as a short form and what follows it. -/
  tag : Option (String × String) := none
  deriving Repr, DecidableEq

/-- A collection whose next part is a node. -/
inductive Frame where
  /-- An item by indentation. -/
  | item (list : OpenList)
  /-- An item of a list whose dashes stand where the keys around it stand. -/
  | looseItem (list : OpenList)
  /-- An item in brackets. -/
  | flowItem (list : OpenList)
  /-- The key of a map with one entry, which is an item in brackets. -/
  | pairKey (list : OpenList)
  /-- The value of such a map. -/
  | pairValue (list : OpenList) (key : Node)
  /-- A key by indentation. -/
  | key (map : OpenMap)
  /-- A value by indentation. -/
  | value (map : OpenMap) (key : Node)
  /-- A marked key in braces. -/
  | flowKey (map : OpenMap)
  /-- A key in braces that gets no value. -/
  | loneKey (map : OpenMap)
  /-- A value in braces. -/
  | flowValue (map : OpenMap) (key : Node)

/-- **What may come next.** -/
inductive Place where
  /-- A directive or the document. -/
  | start
  /-- A further directive or the start of the document. -/
  | directives
  /-- The node of the document, which may be left out. -/
  | document
  /-- A node, about which something may have been said. -/
  | node (marks : Marks)
  /-- A dash, or the end of the list. -/
  | items (list : OpenList)
  /-- A dash, or anything that shows the list to be over. -/
  | looseItems (list : OpenList)
  /-- An item in brackets, or the end. -/
  | flowItem (list : OpenList)
  /-- A comma in brackets, or the end. -/
  | flowItems (list : OpenList)
  /-- The key of a map with one entry. -/
  | pair (list : OpenList)
  /-- The colon after that key. -/
  | pairColon (list : OpenList) (key : Node)
  /-- A key, or the end of the map. -/
  | entries (map : OpenMap)
  /-- The colon after a key. -/
  | colon (map : OpenMap) (key : Node)
  /-- An entry in braces, or the end. -/
  | flowEntry (map : OpenMap)
  /-- A comma in braces, or the end. -/
  | flowEntries (map : OpenMap)
  /-- The colon after a marked key in braces. -/
  | flowColon (map : OpenMap) (key : Node)
  /-- The end of the text. -/
  | done (root : Node)

/-- The place after a node. -/
def Frame.fill (node : Node) : Frame → Place
  | .item list => .items (list.add node)
  | .looseItem list => .looseItems (list.add node)
  | .flowItem list => .flowItems (list.add node)
  | .pairKey list => .pairColon list node
  | .pairValue list k => .flowItems (list.addPair k node)
  | .key map => .colon map node
  | .value map k => .entries (map.add k node)
  | .flowKey map => .flowColon map node
  | .loneKey map => .flowEntries (map.add node (.empty {}))
  | .flowValue map k => .flowEntries (map.add k node)

/-- Whether a node may be left out before a token. -/
def Frame.allowsNothing : Frame → Token → Bool
  | .item _, t => (t matches .item | .blockEnd)
  | .looseItem _, t => (t matches .item | .key | .value | .blockEnd)
  | .key _, t => (t matches .key | .value | .blockEnd)
  | .value _ _, t => (t matches .key | .value | .blockEnd)
  | .pairValue _ _, t => (t matches .comma | .closeList)
  | .flowKey _, t => (t matches .value | .comma | .closeMap)
  | .flowValue _ _, t => (t matches .comma | .closeMap)
  | _, _ => false

/-- Whether a node may be a collection that is written by indentation. -/
def Frame.allowsBlock : Frame → Bool
  | .item _ => true
  | .looseItem _ => true
  | .key _ => true
  | .value _ _ => true
  | _ => false

/-- Whether a node may be a list whose dashes stand where the keys stand. -/
def Frame.allowsLoose : Frame → Bool
  | .key _ => true
  | .value _ _ => true
  | _ => false

/-- **A tree under construction.** -/
structure Build where
  /-- The collections around the place, the innermost one first. -/
  frames : List Frame := []
  /-- What may come next. -/
  place : Place := .start
  /-- Whether the version of the language has been given. -/
  versioned : Bool := false
  /-- The declared short forms of tags. -/
  handles : OrderedMap String := []
  /-- The names so far with their numbers. -/
  names : OrderedMap Nat := []
  /-- The number of scalars and repetitions so far, collections counted twice. -/
  size : Nat := 0

namespace Build

/-- At a place. -/
def goto (place : Place) (b : Build) : Build :=
  { b with place }

/-- Before the node that a collection needs next. -/
def enter (frame : Frame) (b : Build) : Build :=
  { b with frames := frame :: b.frames, place := .node {} }

/-- After a whole node. -/
def finish (node : Node) (b : Build) : Build :=
  match b.frames with
  | [] => { b with place := .done node }
  | frame :: frames => { b with frames, place := frame.fill node }

/-- With some more parts counted. -/
def count (n : Nat) (b : Build) : Build :=
  { b with size := b.size + n }

/-- After an empty scalar. -/
def finishEmpty (label : Label) (b : Build) : Build :=
  (b.finish (.empty label)).count 1

/-- The start of the tags with a short form. Two short forms need no declaration. -/
def handle? (b : Build) (name : String) : Option String :=
  match b.handles.lookup name, name with
  | some start, _ => some start
  | none, "" => some ""
  | none, "!" => some "!"
  | none, "!!" => some "tag:yaml.org,2002:"
  | none, _ => none

/-- What is said about a node that starts now. -/
def labelled? (marks : Marks) (b : Build) : Option (Label × Build) := do
  let tag ← marks.tag.mapM fun (handle, rest) => (b.handle? handle).map (· ++ rest)
  match marks.anchor with
  | none => return ({ tag }, b)
  | some name =>
    let number := b.names.length
    return ({ number := some number, tag }, { b with names := b.names.insert name number })

/-- A list starts. -/
def startList? (place : OpenList → Place) (marks : Marks) (b : Build) : Option Build := do
  let (label, b) ← b.labelled? marks
  return (b.goto (place { label })).count 2

/-- A map starts. -/
def startMap? (place : OpenMap → Place) (marks : Marks) (b : Build) : Option Build := do
  let (label, b) ← b.labelled? marks
  return (b.goto (place { label })).count 2

/-- Whether the node at the place may be a collection that is written by indentation. -/
def allowsBlock (b : Build) : Bool :=
  b.frames.head?.all Frame.allowsBlock

/-- Whether a token can belong to a node about which something has been said. -/
def continues (b : Build) (marks : Marks) : Token → Bool
  | .scalar _ _ => true
  | .openList => true
  | .openMap => true
  | .blockList => b.allowsBlock
  | .blockMap => b.allowsBlock
  | .item => b.frames.head?.any Frame.allowsLoose
  | .anchor _ => marks.anchor.isNone
  | .tag _ _ => marks.tag.isNone
  | _ => false

/-- Fills in a node that has been left out before a token. -/
def settleNode? (t : Token) (b : Build) : Option Build :=
  match b.place with
  | .node marks =>
    if marks = {} then
      some (if b.frames.head?.any (·.allowsNothing t) then b.finishEmpty {} else b)
    else if b.continues marks t then some b
    else do
      let (label, b) ← b.labelled? marks
      return b.finishEmpty label
  | _ => some b

/-- Ends a list without an end of its own before a token that is no dash. -/
def settleList (t : Token) (b : Build) : Build :=
  match b.place with
  | .looseItems list => if t = .item then b else b.finish list.close
  | _ => b

/-- Fills in a value that has been left out, before a token that is no colon. -/
def settleValue (t : Token) (b : Build) : Build :=
  if t = .value then b
  else
    match b.place with
    | .colon map key => (b.goto (.entries (map.add key (.empty {})))).count 1
    | .flowColon map key => (b.goto (.flowEntries (map.add key (.empty {})))).count 1
    | .pairColon list key => (b.goto (.flowItems (list.addPair key (.empty {})))).count 1
    | _ => b

/-- After a token where a node starts or goes on. -/
def node? (marks : Marks) (t : Token) (b : Build) : Option Build :=
  match t with
  | .alias name =>
    if marks = {} then do
      let number ← b.names.lookup name
      return (b.finish (.alias number)).count 1
    else none
  | .anchor name =>
    if marks.anchor.isNone then some (b.goto (.node { marks with anchor := some name })) else none
  | .tag handle rest =>
    if marks.tag.isNone then some (b.goto (.node { marks with tag := some (handle, rest) }))
    else none
  | .scalar style text => do
    let (label, b) ← b.labelled? marks
    let tag := label.tag.filter (· != "!")
    return (b.finish (.scalar { label with tag } style text)).count 1
  | .openList => b.startList? .flowItem marks
  | .openMap => b.startMap? .flowEntry marks
  | .blockList => if b.allowsBlock then b.startList? .items marks else none
  | .blockMap => if b.allowsBlock then b.startMap? .entries marks else none
  | .item =>
    if b.frames.head?.any Frame.allowsLoose then do
      let (label, b) ← b.labelled? marks
      return (b.enter (.looseItem { label })).count 2
    else none
  | _ => none

/-- After a token before the document. -/
def start? (directives : Bool) (t : Token) (b : Build) : Option Build :=
  match t with
  | .version _ _ =>
    if b.versioned then none else some { b with versioned := true, place := .directives }
  | .handle name start =>
    if (b.handles.lookup name).isSome then none
    else some { b with handles := b.handles.insert name start, place := .directives }
  | .documentStart => some (b.goto .document)
  | t => if directives then none else b.node? {} t

/-- After a token before which nothing has been left out. -/
def take? (t : Token) (b : Build) : Option Build :=
  match b.place with
  | .start => b.start? false t
  | .directives => b.start? true t
  | .document => if t = .documentEnd then some (b.finishEmpty {}) else b.node? {} t
  | .node marks => b.node? marks t
  | .items list =>
    match t with
    | .item => some (b.enter (.item list))
    | .blockEnd => some (b.finish list.close)
    | _ => none
  | .looseItems list => if t = .item then some (b.enter (.looseItem list)) else none
  | .flowItem list =>
    match t with
    | .closeList => some (b.finish list.close)
    | .key => some ((b.goto (.pair list)).count 2)
    | t => (b.enter (.flowItem list)).node? {} t
  | .flowItems list =>
    match t with
    | .comma => some (b.goto (.flowItem list))
    | .closeList => some (b.finish list.close)
    | _ => none
  | .pair list =>
    if t matches .value | .comma | .closeList then
      some ((b.goto (.pairColon list (.empty {}))).count 1)
    else (b.enter (.pairKey list)).node? {} t
  | .pairColon list key => if t = .value then some (b.enter (.pairValue list key)) else none
  | .entries map =>
    match t with
    | .key => some (b.enter (.key map))
    | .blockEnd => some (b.finish map.close)
    | _ => none
  | .colon map key => if t = .value then some (b.enter (.value map key)) else none
  | .flowEntry map =>
    match t with
    | .closeMap => some (b.finish map.close)
    | .key => some (b.enter (.flowKey map))
    | t => ((b.enter (.loneKey map)).count 1).node? {} t
  | .flowEntries map =>
    match t with
    | .comma => some (b.goto (.flowEntry map))
    | .closeMap => some (b.finish map.close)
    | _ => none
  | .flowColon map key => if t = .value then some (b.enter (.flowValue map key)) else none
  | .done _ => if t = .documentEnd then some b else none

/-- **After a token.** -/
def step? (b : Build) (t : Token) : Option Build := do
  let b ← b.settleNode? t
  ((b.settleList t).settleValue t).take? t

/-- The outermost node, and the number of parts, where the tokens end. -/
def root? (b : Build) : Option (Node × Nat) :=
  match b.place, b.frames with
  | .done root, _ => some (root, b.size)
  | .start, _ => some (.empty {}, 0)
  | .document, _ => some (.empty {}, b.size + 1)
  | .node marks, [] => do
    let (label, b) ← b.labelled? marks
    return (.empty label, b.size + 1)
  | _, _ => none

end Build

/-- **The tree of a list of tokens.** -/
def ofTokens? (tokens : List Token) : Option Tree := do
  let b ← tokens.foldlM Build.step? {}
  let (root, size) ← b.root?
  return ⟨root, (root.named []).reverse, size⟩

/-- **The tree of a text.** -/
def parse? (text : String) : Option Tree := do
  ofTokens? (← Token.scan? text)

end Tree

end ClientGen.Yaml
