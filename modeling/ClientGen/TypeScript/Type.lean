import ClientGen.Json.Value

/-!
# Types of TypeScript

* `Literal` — a literal value.
* `TypeExpr` — a type.
* `TypeExpr.orNull` — a type that admits null as well.
* `Definition` — an exported type with a name.
-/

namespace ClientGen.TypeScript

open Decimal

/-- **A literal value.** -/
inductive Literal where
  /-- A string. -/
  | string (value : String)
  /-- An integer of sixty-four bits. -/
  | int (value : Int)
  /-- Any other number. -/
  | float (value : Binary64)
  /-- `true` and `false` -/
  | bool (value : Bool)
  /-- `null` -/
  | null
  deriving Repr, Inhabited

/-- Equality of values: the two floating-point zeros are equal. -/
def Literal.same : Literal → Literal → Bool
  | .string a, .string b => a == b
  | .int a, .int b => a == b
  | .float a, .float b => a.sameValue b
  | .bool a, .bool b => a == b
  | .null, .null => true
  | _, _ => false

instance : BEq Literal := ⟨Literal.same⟩

/-- **The literal of a JSON value**, unless the value is an array or an object. Integers beyond
sixty-three bits become floating-point numbers. -/
def Literal.ofJson? : Json → Option Literal
  | .string s => some (.string s)
  | .bool b => some (.bool b)
  | .null => some .null
  | .number (.int i) =>
    if i < twoTo 63 then some (.int i) else (Binary64.ofNat? false i.toNat).map .float
  | .number (.float x) => some (.float x)
  | .array _ => none
  | .object _ => none

/-- The primitive types. -/
inductive PrimitiveType where
  /-- `string` -/
  | string
  /-- `number` -/
  | number
  /-- `boolean` -/
  | boolean
  /-- `unknown` -/
  | unknown
  deriving DecidableEq, Repr, Inhabited

/-- A property of an object type. -/
structure Property (τ : Type) where
  /-- The name, as it is in values. -/
  name : String
  /-- The type. -/
  type : τ
  /-- Whether it may be absent. -/
  optional : Bool
  /-- The description. -/
  doc : Option String
  deriving Repr, Inhabited

/-- **A type.** -/
inductive TypeExpr where
  /-- A primitive type. -/
  | primitive (type : PrimitiveType)
  /-- An array. -/
  | array (items : TypeExpr)
  /-- One of several types. -/
  | union (members : List TypeExpr)
  /-- Several types at once. -/
  | intersection (parts : List TypeExpr)
  /-- An object with named properties, and with a type for all further ones. -/
  | object (properties : List (Property TypeExpr)) (index : Option TypeExpr)
  /-- `Record` -/
  | record (key value : TypeExpr)
  /-- A literal. -/
  | literal (value : Literal)
  /-- A named type. -/
  | ref (name : String)
  deriving Inhabited

namespace TypeExpr

/-- The type of anything. -/
def unknown : TypeExpr :=
  .primitive .unknown

/-- The type of null. -/
def null : TypeExpr :=
  .literal .null

/-- A record with strings as keys. -/
def stringRecord (value : TypeExpr) : TypeExpr :=
  .record (.primitive .string) value

/-- Whether a type is the type of null. -/
def isNull : TypeExpr → Bool
  | .literal .null => true
  | _ => false

/-- **A type that admits null as well**: null becomes the last member of a union that does not have
it yet. -/
def orNull : TypeExpr → TypeExpr
  | .union members => .union (if members.any isNull then members else members ++ [null])
  | .literal .null => .literal .null
  | type => .union [type, null]

end TypeExpr

/-- What an exported type is. -/
inductive DefinitionBody where
  /-- An interface with properties, and with a type for all further ones. -/
  | interface (properties : List (Property TypeExpr)) (index : Option TypeExpr)
  /-- Another name for a type. -/
  | alias (type : TypeExpr)
  /-- A constant object with keys and values, and the type of its values. -/
  | constants (values : List (String × Literal))
  deriving Inhabited

/-- **An exported type with a name.** -/
structure Definition where
  /-- The name. -/
  name : String
  /-- The description. -/
  doc : Option String
  /-- What it is. -/
  body : DefinitionBody
  deriving Inhabited

end ClientGen.TypeScript
