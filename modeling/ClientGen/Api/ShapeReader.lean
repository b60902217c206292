import ClientGen.Api.Shape
import ClientGen.Json.Cursor

/-!
# Reading shapes

A shape is written as an object whose member `kind` says which kind of shape it is, or as an array
that starts with the kind. The other members, or items, are the parts of the shape.

* `Shape.Kind` — the kinds of shapes.
* `Shape.ofJson` — the shape of a value.
* `Shape.read` — the shape at a place of a text.

**Kinds inside a shape** may also be given by their position in the list of all kinds. The outermost
shape at a place of a text is read with the text itself, and there a kind is a name.

**Parts.** Members that are no part of a shape are passed over; a part must not stand twice. A list
of parts must not be longer than the shape has parts.
-/

namespace ClientGen.Shape

/-- **The kinds of shapes.** -/
inductive Kind where
  /-- A scalar. -/
  | primitive
  /-- One value. -/
  | literal
  /-- Several values. -/
  | enumeration
  /-- An array. -/
  | array
  /-- An object. -/
  | object
  /-- A union. -/
  | union
  /-- An intersection. -/
  | intersection
  /-- A reference. -/
  | ref
  /-- A shape that admits null. -/
  | nullable
  /-- Raw bytes. -/
  | binary
  /-- Any value. -/
  | unknown
  deriving DecidableEq, Repr

namespace Kind

/-- All kinds. -/
def all : List Kind :=
  [.primitive, .literal, .enumeration, .array, .object, .union, .intersection, .ref, .nullable,
    .binary, .unknown]

/-- The name of a kind. -/
def name : Kind → String
  | .primitive => "primitive"
  | .literal => "literal"
  | .enumeration => "enum"
  | .array => "array"
  | .object => "object"
  | .union => "union"
  | .intersection => "intersection"
  | .ref => "ref"
  | .nullable => "nullable"
  | .binary => "binary"
  | .unknown => "unknown"

/-- The kinds by name. -/
def choices : List (String × Kind) :=
  all.map fun kind => (kind.name, kind)

/-- The names of the parts of a kind. -/
def parts : Kind → List String
  | .primitive => ["type"]
  | .literal => ["value"]
  | .enumeration => ["values"]
  | .array => ["items"]
  | .object => ["properties", "required", "additionalProperties"]
  | .union => ["variants"]
  | .intersection => ["parts"]
  | .ref => ["name"]
  | .nullable => ["inner"]
  | .binary => []
  | .unknown => []

/-- What a list of the parts of a kind is called. -/
def listName : Kind → String
  | .primitive => "struct variant IrSchema::Primitive with 1 element"
  | .literal => "struct variant IrSchema::Literal with 1 element"
  | .enumeration => "struct variant IrSchema::Enum with 1 element"
  | .array => "struct variant IrSchema::Array with 1 element"
  | .object => "struct ObjectSchema with 3 elements"
  | .union => "struct variant IrSchema::Union with 1 element"
  | .intersection => "struct variant IrSchema::Intersection with 1 element"
  | .ref => "struct variant IrSchema::Ref with 1 element"
  | .nullable => "struct variant IrSchema::Nullable with 1 element"
  | .binary => ""
  | .unknown => ""

/-- The kind with a name. -/
def named (name : String) : Except Mismatch Kind :=
  match choices.lookup name with
  | some kind => .ok kind
  | none => .error (.unknownVariant name (choices.map (·.1)))

/-- The kind at a position. -/
def ofPosition (i : Int) : Except Mismatch Kind :=
  let found := (Json.Number.int i).shown
  if i < 0 then .error (.wrongType found "variant identifier")
  else match all[i.toNat]? with
    | some kind => .ok kind
    | none =>
      .error (.wrongValue found ("variant index 0 <= i < " ++ Text.decimal all.length))

/-- The kind that a value says. -/
def ofJson : Json → Except Mismatch Kind
  | .string name => named name
  | .number (.int i) => ofPosition i
  | v => .error (.wrongType v.shown "variant identifier")

/-- The kind among the members of an object. -/
def ofMembers (members : List (String × Json)) : Except Mismatch Kind :=
  match members.filter (·.1 == "kind") with
  | [] => .error (.missingField "kind")
  | [(_, v)] => ofJson v
  | (_, v) :: _ => do
    let _ ← ofJson v
    .error (.duplicateField "kind")

end Kind

/-- The parts of a shape that have been read. -/
structure Parts where
  /-- The names of the parts. -/
  seen : List String
  /-- The shape, unless it is one of objects. -/
  whole : Option Shape
  /-- The properties. -/
  properties : List (String × Shape)
  /-- The required names. -/
  required : List String
  /-- What is said about further members. -/
  extra : Extra Shape

/-- Nothing has been read. -/
def Parts.blank : Parts :=
  { seen := [], whole := none, properties := [], required := [], extra := .unstated }

/-- The first part that is missing although it has to be there. -/
def Parts.missing? (kind : Kind) (parts : Parts) : Option String :=
  kind.parts.find? fun name => name != "additionalProperties" && !parts.seen.contains name

/-- The shape of all parts. -/
def Parts.shape (kind : Kind) (parts : Parts) : Except Mismatch Shape :=
  match parts.missing? kind with
  | some name => .error (.missingField name)
  | none =>
    match kind with
    | .object =>
      .ok (.object (OrderedMap.ofEntries parts.properties) parts.required parts.extra)
    | .binary => .ok .binary
    | _ => .ok (parts.whole.getD .unknown)

/-- A string. -/
def text : Json → Except Mismatch String
  | .string s => .ok s
  | v => .error (.wrongType v.shown "a string")

/-- Strings. -/
def texts : Json → Except Mismatch (List String)
  | .array vs => vs.mapM text
  | v => .error (.wrongType v.shown "a sequence")

/-- The scalar type with a name. -/
def primitiveNamed (name : String) : Except Mismatch Primitive :=
  let choices := Primitive.all.map fun type => (type.name, type)
  match choices.lookup name with
  | some type => .ok type
  | none => .error (.unknownVariant name (choices.map (·.1)))

/-- Whether a value is null or an empty object. -/
def isUnit : Json → Bool
  | .null => true
  | .object [] => true
  | _ => false

/-- A scalar type: its name, alone or as the only name of an object. -/
def primitiveType : Json → Except Mismatch Primitive
  | .string name => primitiveNamed name
  | .object [(name, v)] => do
    let type ← primitiveNamed name
    if isUnit v then return type else .error (.wrongType v.shown "unit")
  | .object _ => .error (.wrongValue "map" "map with a single key")
  | v => .error (.wrongType v.shown "string or map")

/-- Values of any kind. -/
def anyValues : Json → Except Mismatch (List Json)
  | .array vs => .ok (Json.canonicalItems vs)
  | v => .error (.wrongType v.shown "a sequence")

/-- What is said about further members. -/
def extraOf (v : Json) (shape : Unit → Except Mismatch Shape) : Except Mismatch (Extra Shape) :=
  match v with
  | .null => .ok .unstated
  | .bool false => .ok .forbidden
  | .bool true => .ok (.allowed .unknown)
  | _ =>
    match shape () with
    | .ok shape => .ok (.allowed shape)
    | .error _ => .error (.noneFits "AdditionalPropertiesRepr")

/-- The readings of a value, each made only when it is wanted. -/
structure Readings where
  /-- The value. -/
  value : Json
  /-- As a shape. -/
  shape : Unit → Except Mismatch Shape
  /-- As a list of shapes. -/
  shapes : Unit → Except Mismatch (List Shape)
  /-- As shapes with names. -/
  named : Unit → Except Mismatch (List (String × Shape))

/-- The parts with a further one. -/
def Parts.add (kind : Kind) (name : String) (r : Readings) (parts : Parts) :
    Except Mismatch Parts := do
  let parts := { parts with seen := name :: parts.seen }
  match kind, name with
  | .primitive, _ => return { parts with whole := some (.primitive (← primitiveType r.value)) }
  | .literal, _ => return { parts with whole := some (.literal r.value.canonical) }
  | .enumeration, _ => return { parts with whole := some (.enumeration (← anyValues r.value)) }
  | .array, _ => return { parts with whole := some (.array (← r.shape ())) }
  | .union, _ => return { parts with whole := some (.union (← r.shapes ())) }
  | .intersection, _ => return { parts with whole := some (.intersection (← r.shapes ())) }
  | .ref, _ => return { parts with whole := some (.ref (← text r.value)) }
  | .nullable, _ => return { parts with whole := some (.nullable (← r.shape ())) }
  | .object, "properties" => return { parts with properties := ← r.named () }
  | .object, "required" => return { parts with required := ← texts r.value }
  | .object, _ => return { parts with extra := ← extraOf r.value r.shape }
  | .binary, _ => return parts
  | .unknown, _ => return parts

/-- The wording for a number of items. -/
def itemCount (n : Nat) : String :=
  Text.decimal n ++ (if n = 1 then " element in sequence" else " elements in sequence")

/-- The parts of a list that has no further item. -/
def Parts.ended (kind : Kind) (position : Nat) (parts : Parts) : Except Mismatch Shape :=
  match kind.parts.drop position with
  | [] => parts.shape kind
  | "additionalProperties" :: _ => parts.shape kind
  | _ => .error (.wrongLength position kind.listName)

mutual

/-- **The shape of a value.** -/
def ofJson : Json → Except Mismatch Shape
  | .object members => do
    let kind ← Kind.ofMembers members
    ofMembers kind Parts.blank members
  | .array [] => .error (.missingField "kind")
  | .array (v :: items) => do
    let kind ← Kind.ofJson v
    ofItems kind 0 Parts.blank items
  | v => .error (.wrongType v.shown "internally tagged enum IrSchema")

/-- The shape of parts that are members. -/
def ofMembers (kind : Kind) (parts : Parts) : List (String × Json) → Except Mismatch Shape
  | [] => parts.shape kind
  | (name, v) :: members =>
    if kind.parts.contains name then
      if parts.seen.contains name then .error (.duplicateField name)
      else do
        let parts ← parts.add kind name
          ⟨v, fun _ => ofJson v, fun _ => shapesOf v, fun _ => namedOf v⟩
        ofMembers kind parts members
    else ofMembers kind parts members

/-- The shape of parts that are items, the next of them at a position. -/
def ofItems (kind : Kind) (position : Nat) (parts : Parts) : List Json → Except Mismatch Shape
  | [] => parts.ended kind position
  | v :: items =>
    match kind.parts[position]? with
    | some name => do
      let parts ← parts.add kind name
        ⟨v, fun _ => ofJson v, fun _ => shapesOf v, fun _ => namedOf v⟩
      ofItems kind (position + 1) parts items
    | none => .error (.wrongLength (position + items.length + 1) (itemCount position))

/-- The shapes of a list. -/
def shapesOf : Json → Except Mismatch (List Shape)
  | .array items => allOf items
  | v => .error (.wrongType v.shown "a sequence")

/-- The shapes of an object. -/
def namedOf : Json → Except Mismatch (List (String × Shape))
  | .object members => eachOf members
  | v => .error (.wrongType v.shown "a map")

/-- The shapes of items. -/
def allOf : List Json → Except Mismatch (List Shape)
  | [] => .ok []
  | v :: items => do
    let shape ← ofJson v
    let shapes ← allOf items
    return shape :: shapes

/-- The shapes of members. -/
def eachOf : List (String × Json) → Except Mismatch (List (String × Shape))
  | [] => .ok []
  | (name, v) :: members => do
    let shape ← ofJson v
    let shapes ← eachOf members
    return (name, shape) :: shapes

end

/-- The kind that stands at a place of a text. -/
def readKind (c : Json.Cursor) : Except Json.Failure Kind :=
  match c.source with
  | .string s => do (Kind.named (← s.read)).mapError .mismatch
  | _ => c.refuse "variant identifier"

open Json (Source Lexeme Failure enter check)

/-- The kind and the other members of an object, in the order of the text. -/
def readMembers (room : Nat) (kind : Option Kind) (members : List (String × Json)) :
    List (Lexeme String × Source) → Except Failure (Option Kind × List (String × Json))
  | [] => .ok (kind, members.reverse)
  | (k, v) :: rest => do
    let name ← k.read
    if name == "kind" then
      if kind.isSome then .error (.mismatch (.duplicateField "kind"))
      else
        let kind ← readKind ⟨v, room⟩
        readMembers room (some kind) members rest
    else
      let value ← v.value room
      readMembers room kind ((name, value) :: members) rest

/-- **The shape at a place of a text.** -/
def read (c : Json.Cursor) : Except Failure Shape :=
  match c.source with
  | .array items atEnd => do
    let room ← enter c.room
    match items with
    | [] =>
      check atEnd
      .error (.mismatch (.missingField "kind"))
    | first :: items =>
      let kind ← readKind ⟨first, room⟩
      let values ← Source.itemValues room items
      check atEnd
      (ofItems kind 0 Parts.blank values).mapError .mismatch
  | .object members atEnd => do
    let room ← enter c.room
    let (kind, members) ← readMembers room none [] members
    check atEnd
    match kind with
    | none => .error (.mismatch (.missingField "kind"))
    | some kind => (ofMembers kind Parts.blank members).mapError .mismatch
  | _ => c.refuse "internally tagged enum IrSchema"

end ClientGen.Shape
