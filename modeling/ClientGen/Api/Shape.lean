import ClientGen.Json.Value
import ClientGen.Naming

/-!
# Shapes

A shape says what values look like. It is closed: whatever a schema of a document can say ends as
one of the eleven kinds here, and a reference is only the name of a model.

* `Shape` — the shape of a value.
* `Extra` — what a shape of objects says about members that it does not list.
* `Shape.same` — equality of shapes.
* `Shape.Algebra`, `Shape.fold` — one operation for each kind of shape, and their use from the
  leaves upwards.
* `Shape.orNull` — a shape that admits null as well.
* `Shape.references` — the names of the models that a shape refers to.
* `Shape.rename` — the shape with other names of models.
* `Shape.sorted` — the shape with properties and required names in ascending order.
-/

namespace ClientGen

/-- The scalar types. -/
inductive Primitive where
  /-- Texts. -/
  | string
  /-- Numbers. -/
  | number
  /-- Integers. -/
  | integer
  /-- Truth values. -/
  | boolean
  deriving DecidableEq, Repr, Inhabited

/-- The name of a scalar type. -/
def Primitive.name : Primitive → String
  | .string => "string"
  | .number => "number"
  | .integer => "integer"
  | .boolean => "boolean"

/-- All scalar types, in the order in which they are named to users. -/
def Primitive.all : List Primitive :=
  [.string, .number, .integer, .boolean]

/-- **Members that a shape of objects does not list.** -/
inductive Extra (σ : Type) where
  /-- Nothing is said about them. -/
  | unstated
  /-- There are none. -/
  | forbidden
  /-- Their values have a shape. -/
  | allowed (values : σ)
  deriving Repr, Inhabited

/-- The image of what is said. -/
def Extra.map {σ τ : Type} (f : σ → τ) : Extra σ → Extra τ
  | .unstated => .unstated
  | .forbidden => .forbidden
  | .allowed values => .allowed (f values)

/-- The shape of further members, if they are allowed. -/
def Extra.allowed? {σ : Type} : Extra σ → Option σ
  | .allowed values => some values
  | _ => none

/-- **The shape of a value.** -/
inductive Shape where
  /-- A scalar of one type. -/
  | primitive (type : Primitive)
  /-- One JSON value. -/
  | literal (value : Json)
  /-- One of several JSON values. -/
  | enumeration (values : List Json)
  /-- An array with items of one shape. -/
  | array (items : Shape)
  /-- An object with named properties. -/
  | object (properties : List (String × Shape)) (required : List String) (extra : Extra Shape)
  /-- One of several shapes. -/
  | union (variants : List Shape)
  /-- Several shapes at once. -/
  | intersection (parts : List Shape)
  /-- The shape of a model. -/
  | ref (name : String)
  /-- A shape or null. -/
  | nullable (inner : Shape)
  /-- Raw bytes. -/
  | binary
  /-- Any value. -/
  | unknown
  deriving Inhabited

namespace Shape

mutual

/-- **Equality of shapes.** Properties are compared by name, in any order; everything else is
compared as it stands. -/
def same : Shape → Shape → Bool
  | .primitive a, .primitive b => a == b
  | .literal v, .literal w => v == w
  | .enumeration vs, .enumeration ws => vs == ws
  | .array s, .array t => same s t
  | .object ps required extra, .object qs required' extra' =>
    ps.length == qs.length && eachAmong ps qs && required == required' && sameExtra extra extra'
  | .union ss, .union ts => sameList ss ts
  | .intersection ss, .intersection ts => sameList ss ts
  | .ref a, .ref b => a == b
  | .nullable s, .nullable t => same s t
  | .binary, .binary => true
  | .unknown, .unknown => true
  | _, _ => false

/-- Whether each property is among others with its name. -/
def eachAmong : List (String × Shape) → List (String × Shape) → Bool
  | [], _ => true
  | (name, s) :: ps, qs =>
    (match qs.lookup name with
      | some t => same s t
      | none => false) && eachAmong ps qs

/-- Equality of lists of shapes. -/
def sameList : List Shape → List Shape → Bool
  | [], [] => true
  | s :: ss, t :: ts => same s t && sameList ss ts
  | _, _ => false

/-- Equality of what is said about further members. -/
def sameExtra : Extra Shape → Extra Shape → Bool
  | .unstated, .unstated => true
  | .forbidden, .forbidden => true
  | .allowed s, .allowed t => same s t
  | _, _ => false

end

instance : BEq Shape :=
  ⟨same⟩

/-- **One operation for each kind of shape.** -/
structure Algebra (α : Type) where
  /-- For scalars. -/
  primitive : Primitive → α
  /-- For one value. -/
  literal : Json → α
  /-- For several values. -/
  enumeration : List Json → α
  /-- For arrays. -/
  array : α → α
  /-- For objects. -/
  object : OrderedMap α → List String → Extra α → α
  /-- For unions. -/
  union : List α → α
  /-- For intersections. -/
  intersection : List α → α
  /-- For references. -/
  ref : String → α
  /-- For shapes that admit null. -/
  nullable : α → α
  /-- For raw bytes. -/
  binary : α
  /-- For any value. -/
  unknown : α

variable {α : Type}

mutual

/-- **An algebra applied from the leaves upwards.** -/
def fold (a : Algebra α) : Shape → α
  | .primitive type => a.primitive type
  | .literal value => a.literal value
  | .enumeration values => a.enumeration values
  | .array items => a.array (fold a items)
  | .object properties required extra =>
    a.object (foldProperties a properties) required (foldExtra a extra)
  | .union variants => a.union (foldAll a variants)
  | .intersection parts => a.intersection (foldAll a parts)
  | .ref name => a.ref name
  | .nullable inner => a.nullable (fold a inner)
  | .binary => a.binary
  | .unknown => a.unknown

/-- An algebra applied to several shapes. -/
def foldAll (a : Algebra α) : List Shape → List α
  | [] => []
  | shape :: shapes => fold a shape :: foldAll a shapes

/-- An algebra applied to properties. -/
def foldProperties (a : Algebra α) : List (String × Shape) → OrderedMap α
  | [] => []
  | (name, shape) :: properties => (name, fold a shape) :: foldProperties a properties

/-- An algebra applied to what is said about further members. -/
def foldExtra (a : Algebra α) : Extra Shape → Extra α
  | .unstated => .unstated
  | .forbidden => .forbidden
  | .allowed values => .allowed (fold a values)

end

theorem foldAll_eq_map (a : Algebra α) (shapes : List Shape) :
    foldAll a shapes = shapes.map (fold a) := by
  induction shapes with
  | nil => rfl
  | cons shape shapes ih => simp [foldAll, ih]

theorem foldProperties_eq_mapValues (a : Algebra α) (properties : OrderedMap Shape) :
    foldProperties a properties = properties.mapValues (fold a) := by
  induction properties with
  | nil => rfl
  | cons property properties ih => simpa [foldProperties, OrderedMap.mapValues] using ih

theorem foldExtra_eq_map (a : Algebra α) (extra : Extra Shape) :
    foldExtra a extra = extra.map (fold a) := by
  cases extra <;> rfl

/-- The algebra that rebuilds every shape. -/
def rebuild : Algebra Shape where
  primitive := .primitive
  literal := .literal
  enumeration := .enumeration
  array := .array
  object := .object
  union := .union
  intersection := .intersection
  ref := .ref
  nullable := .nullable
  binary := .binary
  unknown := .unknown

/-- The shape of null alone. -/
def null : Shape :=
  .literal .null

/-- Whether a shape is that of null alone. -/
def isNull : Shape → Bool
  | .literal .null => true
  | _ => false

/-- **A shape that admits null as well**: the shape itself if it says so already. -/
def orNull : Shape → Shape
  | .nullable inner => .nullable inner
  | .literal .null => .literal .null
  | shape => .nullable shape

/-- The algebra that collects references, in the order of the shape and with repetitions. -/
def collectReferences : Algebra (List String) where
  primitive _ := []
  literal _ := []
  enumeration _ := []
  array items := items
  object properties _ extra := properties.flatMap (·.2) ++ extra.allowed?.getD []
  union variants := variants.flatten
  intersection parts := parts.flatten
  ref name := [name]
  nullable inner := inner
  binary := []
  unknown := []

/-- **The names of the models that a shape refers to**, in ascending order, each once. -/
def references (shape : Shape) : List String :=
  Naming.ascending (shape.fold collectReferences)

/-- The new name of a model: its own one if no new one is given. -/
def renamed (newNames : List (String × String)) (name : String) : String :=
  (newNames.lookup name).getD name

/-- **The shape with other names of models.** -/
def rename (newNames : List (String × String)) : Shape → Shape :=
  fold { rebuild with ref := fun name => .ref (renamed newNames name) }

/-- **The shape in canonical order**: properties and required names ascend, and no required name
stands twice. -/
def sorted : Shape → Shape :=
  fold { rebuild with
    object := fun properties required extra =>
      .object properties.sorted (Naming.ascending required) extra }

end Shape

end ClientGen
