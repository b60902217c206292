import ClientGen.Diagnostic
import ClientGen.Document.Form
import ClientGen.Pointer

/-!
# The shape of a schema

Every schema has a shape. What a shape cannot express becomes the shape of any value, and a
diagnostic says so.

* `Schema.shape` — the shape of a schema at a place of a document.
* `Schema.unionOf` — a union of shapes, in which null is no variant but admitted on top.

**Recursion** goes from a schema to its form, and from the form to the schemas inside, which
are smaller by `Form.size_form_lt`.
-/

namespace ClientGen.Schema

/-- A place below another one. -/
def placeBelow (place : Option String) (tokens : List String) : Option String :=
  place.map (Pointer.descend · tokens)

/-- The shape of what cannot be expressed, with the reason. -/
def unsupported (place : Option String) (reason : String) : Noted Shape := do
  Noted.warn "schema.unsupported" reason place
  return .unknown

/-- One warning for each schema that contradicts an earlier one. -/
def conflicting (place : Option String) : (conflicts : Nat) → Noted Unit
  | 0 => pure ()
  | conflicts + 1 => do
    Noted.warn "schema.allOf.additionalProperties"
      "Conflicting additionalProperties in allOf; using the last value." place
    conflicting place conflicts

/-- **A union of shapes.** Variants of null alone are dropped and null is admitted on top; a variant
that is left alone needs no union. -/
def unionOf (shapes : List Shape) : Shape :=
  let variants := shapes.filter (!·.isNull)
  if variants.length = shapes.length then .union shapes
  else match variants with
    | [] => .null
    | [only] => only.orNull
    | variants => (Shape.union variants).orNull

theorem size_le_size_oneOfTypes {type : TypeForm} {types : List TypeForm} (h : type ∈ types) :
    type.size ≤ (Form.oneOfTypes types).size := by
  simp only [Form.size]
  induction types with
  | nil => cases h
  | cons t ts ih =>
    simp only [List.map_cons, List.foldr_cons]
    rcases List.mem_cons.1 h with rfl | h
    · omega
    · have := ih h
      omega

mutual

/-- **The shape of a schema** at a place. -/
def shape (place : Option String) (s : Schema) : Noted Shape := do
  let inner ← formShape place s.form
  return if s.admitsNull then inner.orNull else inner
termination_by 3 * sizeOf s
decreasing_by
  have := Form.size_form_lt s
  omega

/-- The shape of a form. -/
def formShape (place : Option String) (form : Form) : Noted Shape :=
  match form with
  | .malformed reason => unsupported place reason
  | .ref name => return .ref name
  | .null => return .null
  | .enumeration values => return .enumeration values
  | .literal value => return .literal value
  | .union keyword members => do return unionOf (← memberShapes place keyword 0 members)
  | .only part => shape (placeBelow place ["allOf", "0"]) part
  | .intersection parts => do return .intersection (← memberShapes place "allOf" 0 parts)
  | .merged conflicts properties required additional => do
    conflicting place conflicts
    objectShape place properties required additional
  | .typed type => typeShape place type
  | .oneOfTypes types => do
    return .union (← types.attach.mapM fun ⟨type, _⟩ => typeShape place type)
termination_by 3 * form.size + 2
decreasing_by
  all_goals simp only [Form.size]
  any_goals omega
  have := size_le_size_oneOfTypes ‹type ∈ types›
  simp only [Form.size] at this
  omega

/-- The shape of the form of a type. -/
def typeShape (place : Option String) (type : TypeForm) : Noted Shape :=
  match type with
  | .object properties required additional => objectShape place properties required additional
  | .array none => return .array .unknown
  | .array (some items) => do return .array (← shape (placeBelow place ["items"]) items)
  | .primitive type => return .primitive type
  | .binary => return .binary
  | .unsupported => unsupported place "Unsupported schema shape; falling back to unknown."
termination_by 3 * type.size + 1
decreasing_by
  all_goals simp only [TypeForm.size, Option.some.sizeOf_spec]
  all_goals omega

/-- The shape of objects. -/
def objectShape (place : Option String) (properties : List (String × Schema))
    (required : List String) (additional : Option (Additional Schema)) : Noted Shape := do
  let properties ← propertyShapes place properties
  let extra ← extraShape place additional
  return .object properties required extra
termination_by 3 * (sizeOf properties + sizeOf additional)
decreasing_by
  · have : 1 ≤ sizeOf additional := by
      cases additional with
      | none => simp
      | some stated => simp
    omega
  · have : 1 ≤ sizeOf properties := by
      cases properties with
      | nil => simp
      | cons entry rest =>
          simp only [List.cons.sizeOf_spec]
          omega
    omega

/-- The shapes of the schemas of a keyword, from a position on. -/
def memberShapes (place : Option String) (keyword : String) (position : Nat)
    (members : List Schema) : Noted (List Shape) :=
  match members with
  | [] => return []
  | s :: members => do
    let first ← shape (placeBelow place [keyword, Text.decimal position]) s
    let rest ← memberShapes place keyword (position + 1) members
    return first :: rest
termination_by 3 * sizeOf members

/-- The shapes of properties. -/
def propertyShapes (place : Option String) (properties : List (String × Schema)) :
    Noted (List (String × Shape)) :=
  match properties with
  | [] => return []
  | (name, s) :: properties => do
    let first ← shape (placeBelow place ["properties", name]) s
    let rest ← propertyShapes place properties
    return (name, first) :: rest
termination_by 3 * sizeOf properties

/-- What is said about further members. -/
def extraShape (place : Option String) (additional : Option (Additional Schema)) :
    Noted (Extra Shape) :=
  match additional with
  | none => return .unstated
  | some (.flag false) => return .forbidden
  | some (.flag true) => return .allowed .unknown
  | some (.schema s) => do return .allowed (← shape (placeBelow place ["additionalProperties"]) s)
termination_by 3 * sizeOf additional

end

end ClientGen.Schema
