import ClientGen.Api.Basic
import ClientGen.TypeScript.Text
import ClientGen.TypeScript.Type

/-!
# Shapes as types of TypeScript

* `typeOf` — the type of a shape.
* `definition` — the exported type of a model.

**Objects.** The type of further properties has to admit the types of the listed ones, which only
`unknown` does for sure. Otherwise the listed and the further properties are two types, taken
together.

**Enumerations.** Repetitions that follow each other are dropped. A model that lists only strings,
or only numbers, becomes a constant object; its keys are made different by numbers.
-/

namespace ClientGen.TypeScript

/-- The type of a scalar. -/
def primitiveType : Primitive → PrimitiveType
  | .string => .string
  | .number => .number
  | .integer => .number
  | .boolean => .boolean

/-- The type of one JSON value. -/
def literalType (value : Json) : TypeExpr :=
  match Literal.ofJson? value with
  | some l => .literal l
  | none => .unknown

/-- The literals of JSON values, without repetitions that follow each other. -/
def literals (values : List Json) : List Literal :=
  (values.filterMap Literal.ofJson?).eraseReps

/-- The type of several JSON values. -/
def enumerationType (values : List Json) : TypeExpr :=
  match literals values with
  | [] => .unknown
  | [l] => .literal l
  | ls => .union (ls.map .literal)

/-- The properties of an object type. -/
def properties (types : OrderedMap TypeExpr) (required : List String) :
    List (Property TypeExpr) :=
  types.map fun (name, type) =>
    { name, type, optional := !required.contains name, doc := none }

/-- Whether the type of further properties admits every other type. -/
def fitsInline : TypeExpr → Bool
  | .primitive .unknown => true
  | _ => false

/-- Whether listed and further properties have to be two types. -/
def isSplit (properties : List (Property TypeExpr)) : Option TypeExpr → Bool
  | some index => !properties.isEmpty && !fitsInline index
  | none => false

/-- The type of objects. -/
def objectType (types : OrderedMap TypeExpr) (required : List String) (extra : Extra TypeExpr) :
    TypeExpr :=
  let listed := properties types required
  if isSplit listed extra.allowed? then
    .intersection [.object listed none, .object [] extra.allowed?]
  else .object listed extra.allowed?

/-- The algebra that makes types. -/
def typing : Shape.Algebra TypeExpr where
  primitive type := .primitive (primitiveType type)
  literal := literalType
  enumeration := enumerationType
  array := .array
  object := objectType
  union := .union
  intersection := .intersection
  ref := .ref
  nullable := TypeExpr.orNull
  binary := .ref "Blob"
  unknown := .unknown

/-- **The type of a shape.** -/
def typeOf (shape : Shape) : TypeExpr :=
  shape.fold typing

/-- The key of a literal that stands at a position among others. -/
def constantKey (l : Literal) (position : Nat) : String :=
  match l with
  | .string s => key s
  | .int i => "VALUE_" ++ (if 0 ≤ i then toString i else Text.decimal position)
  | .float _ => "VALUE_" ++ Text.decimal position
  | .bool true => "TRUE"
  | .bool false => "FALSE"
  | .null => "NULL"

/-- The keys of literals, all different. -/
def constants (ls : List Literal) : List (String × Literal) :=
  let candidates := ls.zipIdx.map fun (l, position) => constantKey l position
  (Naming.uniqueAll [] candidates).1.zip ls

/-- What the exported type of objects is. -/
def objectDefinition (types : OrderedMap TypeExpr) (required : List String)
    (extra : Extra TypeExpr) : DefinitionBody :=
  let listed := properties types required
  if isSplit listed extra.allowed? then .alias (objectType types required extra)
  else .interface listed extra.allowed?

/-- What the exported type of a shape is. -/
def definitionBody : Shape → DefinitionBody
  | .object types required extra =>
    objectDefinition (Shape.foldProperties typing types) required (Shape.foldExtra typing extra)
  | .enumeration values =>
    if !values.isEmpty && (values.all Json.isString || values.all Json.isNumber) then
      .constants (constants (literals values))
    else .alias (enumerationType values)
  | shape => .alias (typeOf shape)

/-- **The exported type of a model.** -/
def definition (m : Model) : Definition :=
  { name := m.name, doc := m.doc, body := definitionBody m.shape }

end ClientGen.TypeScript
