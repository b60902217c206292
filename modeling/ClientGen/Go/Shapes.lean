import ClientGen.Api.Basic
import ClientGen.Go.Text

/-!
# Shapes as types of Go

* `typeOf` — the type of a shape.
* `fieldType` — the type of a field of a struct.

**Absence.** A type that admits null is a pointer, unless it is `any` or a pointer already. A field
that may be absent is a pointer, unless its type has a value for absence. A field that refers to a
model is always a pointer, so that models may contain themselves.
-/

namespace ClientGen.Go

/-- The type of a scalar. -/
def primitiveType : Primitive → String
  | .string => "string"
  | .integer => "int64"
  | .number => "float64"
  | .boolean => "bool"

/-- The scalar type that all values of an enumeration share. -/
def enumerationType (values : List Json) : String :=
  if values.isEmpty then "any"
  else if values.all Json.isString then "string"
  else if values.all Json.isInteger then "int64"
  else if values.all Json.isNumber then "float64"
  else if values.all Json.isBool then "bool"
  else "any"

/-- The type of what a type stands for, or null. -/
def orNull (type : String) : String :=
  if type == "any" || type.startsWith "*" then type else "*" ++ type

/-- The algebra that makes types. -/
def typing : Shape.Algebra String where
  primitive := primitiveType
  literal _ := "any"
  enumeration := enumerationType
  array items := "[]" ++ items
  object _ _ extra := "map[string]" ++ extra.allowed?.getD "any"
  union _ := "any"
  intersection _ := "any"
  ref name := name
  nullable := orNull
  binary := "[]byte"
  unknown := "any"

/-- **The type of a shape.** -/
def typeOf (shape : Shape) : String :=
  shape.fold typing

/-- Whether a shape is a reference. -/
def isReference : Shape → Bool
  | .ref _ => true
  | _ => false

/-- **The type of a field of a struct.** -/
def fieldType (shape : Shape) (required : Bool) : String :=
  let type := typeOf shape
  if isReference shape || (!required && !isNilable type) then "*" ++ type else type

end ClientGen.Go
