import ClientGen.Document.Normal
import ClientGen.Proofs.Results

/-!
# The outline of a schema

`Schema.shape` gives a shape and notes what it could not express. Where a schema stands matters for
the notes alone: the shape is the same at every place. That shape is the *outline* of the schema,
and it obeys one equation for each form.

* `Schema.outline`, `Form.outline`, `TypeForm.outline` — the shape without the notes.
* `Schema.value_shape` — the shape at every place is the outline.
* `Form.members` — the schemas directly inside a form.
* `Schema.form_induction` — what passes from the schemas inside a form to the schema itself holds of
  every schema.
* `Schema.outline_eq`, `TypeForm.outline_object`, `Form.outline_union` and the others — the
  equations of outlines.

## Induction along forms

A schema holds schemas under many keywords, and few of them count at a time: a schema with a
reference ignores the rest, and parts that are merged give their properties and are not seen
themselves. Induction on the keywords would ask for cases that no shape depends on. The form of a
schema is what is left of the keywords once they have been weighed, and `Form.members` are the
schemas that its shape is made of. They are smaller than the schema, which is all that
`Schema.form_induction` needs, and every theorem about shapes of schemas goes along it.

## Places

A place is a pointer into the source document, and a note carries it along. The shape is the same
at every place first for schemas whose members are already known not to depend on their places
(`Schema.Settled`), one lemma for each function of the translation. The induction principle then
makes this unconditional. The outline is the shape at no place, and the equations are stated for
outlines only, so that no later proof about shapes carries a place along.
-/

namespace ClientGen

/-! ## The schemas inside a form -/

/-- The schema of further members, if there is one. -/
def Additional.schema? {σ : Type} : Additional σ → Option σ
  | .flag _ => none
  | .schema values => some values

/-- The schemas of objects: of the properties and of further members. -/
def objectMembers (properties : List (String × Schema)) (additional : Option (Additional Schema)) :
    List Schema :=
  properties.map (·.2) ++ (additional.bind (·.schema?)).toList

/-- The schemas directly inside the form of a type. -/
def TypeForm.members : TypeForm → List Schema
  | .object properties _ additional => objectMembers properties additional
  | .array items => items.toList
  | .primitive _ => []
  | .binary => []
  | .unsupported => []

/-- **The schemas directly inside a form.** -/
def Form.members : Form → List Schema
  | .malformed _ => []
  | .ref _ => []
  | .null => []
  | .enumeration _ => []
  | .literal _ => []
  | .union _ members => members
  | .only part => [part]
  | .intersection parts => parts
  | .merged _ properties _ additional => objectMembers properties additional
  | .typed type => type.members
  | .oneOfTypes types => types.flatMap TypeForm.members

/-- The schemas of objects are no larger than the properties and what is said about further
members. -/
theorem sizeOf_le_of_mem_objectMembers {properties : List (String × Schema)}
    {additional : Option (Additional Schema)} {s : Schema}
    (member : s ∈ objectMembers properties additional) :
    sizeOf s ≤ sizeOf properties + sizeOf additional := by
  rcases List.mem_append.mp member with listed | further
  · obtain ⟨⟨name, s⟩, present, rfl⟩ := List.mem_map.mp listed
    have := List.sizeOf_lt_of_mem present
    simp only [Prod.mk.sizeOf_spec] at this ⊢
    omega
  · cases additional with
    | none => cases further
    | some additional =>
        cases additional with
        | flag allowed => cases further
        | schema values =>
            obtain rfl : s = values := by simpa [Additional.schema?] using further
            simp only [Option.some.sizeOf_spec, Additional.schema.sizeOf_spec]
            omega

/-- The schemas inside the form of a type are no larger than the form. -/
theorem TypeForm.sizeOf_le_of_mem_members {type : TypeForm} {s : Schema}
    (member : s ∈ type.members) : sizeOf s ≤ type.size := by
  cases type with
  | object properties required additional => exact sizeOf_le_of_mem_objectMembers member
  | array items =>
      cases items with
      | none => cases member
      | some items =>
          obtain rfl : s = items := by simpa [TypeForm.members] using member
          simp [TypeForm.size]
  | primitive type => cases member
  | binary => cases member
  | unsupported => cases member

/-- The schemas inside a form are no larger than the form. -/
theorem Form.sizeOf_le_of_mem_members {form : Form} {s : Schema} (member : s ∈ form.members) :
    sizeOf s ≤ form.size := by
  cases form with
  | union keyword members => exact Nat.le_of_lt (List.sizeOf_lt_of_mem member)
  | only part =>
      obtain rfl : s = part := List.mem_singleton.mp member
      exact Nat.le_refl _
  | intersection parts => exact Nat.le_of_lt (List.sizeOf_lt_of_mem member)
  | merged conflicts properties required additional =>
      exact sizeOf_le_of_mem_objectMembers member
  | typed type => exact TypeForm.sizeOf_le_of_mem_members member
  | oneOfTypes types =>
      obtain ⟨type, listed, member⟩ := List.mem_flatMap.mp member
      exact Nat.le_trans (TypeForm.sizeOf_le_of_mem_members member)
        (Schema.size_le_size_oneOfTypes listed)
  | malformed reason => cases member
  | ref name => cases member
  | null => cases member
  | enumeration values => cases member
  | literal value => cases member

/-- **Induction along forms.** What holds of a schema as soon as it holds of the schemas inside its
form holds of every schema. -/
theorem Schema.form_induction {P : Schema → Prop}
    (step : ∀ s : Schema, (∀ t ∈ s.form.members, P t) → P s) (s : Schema) : P s := by
  induction size : sizeOf s using Nat.strongRecOn generalizing s with
  | ind n smaller =>
      refine step s fun t member => smaller (sizeOf t) ?_ t rfl
      have inside := Form.sizeOf_le_of_mem_members member
      have below := Form.size_form_lt s
      omega

/-! ## Outlines -/

/-- **The outline of a schema**: its shape without the notes. -/
def Schema.outline (s : Schema) : Shape :=
  (s.shape none).value

/-- The outline of the form of a type. -/
def TypeForm.outline (type : TypeForm) : Shape :=
  (Schema.typeShape none type).value

/-- The outline of a form. -/
def Form.outline (form : Form) : Shape :=
  (Schema.formShape none form).value

/-- The outline of what is said about further members. -/
def outlineExtra : Option (Additional Schema) → Extra Shape
  | none => .unstated
  | some (.flag false) => .forbidden
  | some (.flag true) => .allowed .unknown
  | some (.schema values) => .allowed values.outline

/-- The outline of objects. -/
def outlineObject (properties : List (String × Schema)) (required : List String)
    (additional : Option (Additional Schema)) : Shape :=
  .object (OrderedMap.mapValues Schema.outline properties) required (outlineExtra additional)

namespace Schema

/-- The shape of a schema is the same at every place. -/
def Settled (s : Schema) : Prop :=
  ∀ place, (s.shape place).value = s.outline

/-- What is not supported has the shape of any value, whatever is noted about it. -/
@[simp] theorem value_unsupported (place : Option String) (reason : String) :
    (unsupported place reason).value = .unknown := rfl

/-- Members of a list do not depend on their places once each of them does not. -/
theorem value_memberShapes {members : List Schema} (settled : ∀ s ∈ members, s.Settled)
    (place : Option String) (keyword : String) (position : Nat) :
    (memberShapes place keyword position members).value = members.map outline := by
  induction members generalizing position with
  | nil => simp [memberShapes]
  | cons s members ih =>
      have first := settled s (List.mem_cons_self ..)
      have rest := ih (fun t member => settled t (List.mem_cons_of_mem _ member)) (position + 1)
      simp [memberShapes, first _, rest]

/-- Properties do not depend on their places once each of them does not. -/
theorem value_propertyShapes {properties : List (String × Schema)}
    (settled : ∀ property ∈ properties, property.2.Settled) (place : Option String) :
    (propertyShapes place properties).value = OrderedMap.mapValues outline properties := by
  induction properties with
  | nil => simp [propertyShapes, OrderedMap.mapValues]
  | cons property properties ih =>
      obtain ⟨name, s⟩ := property
      have first : s.Settled := settled (name, s) (List.mem_cons_self ..)
      have rest := ih fun p member => settled p (List.mem_cons_of_mem _ member)
      simp only [OrderedMap.mapValues] at rest
      simp [propertyShapes, OrderedMap.mapValues, first _, rest]

/-- Further members do not depend on their place once their schema does not. -/
theorem value_extraShape {additional : Option (Additional Schema)}
    (settled : ∀ s ∈ additional.bind (·.schema?), s.Settled) (place : Option String) :
    (extraShape place additional).value = outlineExtra additional := by
  unfold extraShape
  split
  · rfl
  · rfl
  · rfl
  · rename_i values
    have inner := settled values (by simp [Additional.schema?])
    simp [inner _, outlineExtra]

/-- Objects do not depend on their place once the schemas inside do not. -/
theorem value_objectShape {properties : List (String × Schema)}
    {additional : Option (Additional Schema)}
    (settled : ∀ s ∈ objectMembers properties additional, s.Settled) (place : Option String)
    (required : List String) :
    (objectShape place properties required additional).value =
      outlineObject properties required additional := by
  have listed : ∀ property ∈ properties, property.2.Settled := fun property present =>
    settled _ (List.mem_append_left _ (List.mem_map_of_mem present))
  have further : ∀ s ∈ additional.bind (·.schema?), s.Settled := fun s present =>
    settled s (List.mem_append_right _ (Option.mem_toList.mpr present))
  simp [objectShape, value_propertyShapes listed, value_extraShape further, outlineObject]

/-- The form of a type does not depend on its place once the schemas inside do not. -/
theorem value_typeShape {type : TypeForm} (settled : ∀ s ∈ type.members, s.Settled)
    (place : Option String) : (typeShape place type).value = type.outline := by
  unfold TypeForm.outline
  cases type with
  | object properties required additional =>
      simp only [typeShape]
      rw [value_objectShape settled, value_objectShape settled]
  | array items =>
      cases items with
      | none => simp [typeShape]
      | some items =>
          have inner : items.Settled := settled items (by simp [TypeForm.members])
          simp [typeShape, inner _]
  | primitive type => simp [typeShape]
  | binary => simp [typeShape]
  | unsupported => simp [typeShape]

/-- **The step of the induction**: a form does not depend on its place once the schemas inside do
not. -/
theorem value_formShape {form : Form} (settled : ∀ s ∈ form.members, s.Settled)
    (place : Option String) : (formShape place form).value = form.outline := by
  unfold Form.outline
  cases form with
  | malformed reason => simp [formShape]
  | ref name => simp [formShape]
  | null => simp [formShape]
  | enumeration values => simp [formShape]
  | literal value => simp [formShape]
  | union keyword members =>
      have each : ∀ s ∈ members, s.Settled := settled
      simp [formShape, value_memberShapes each]
  | only part =>
      have inner : part.Settled := settled part (List.mem_singleton_self _)
      simp [formShape, inner _]
  | intersection parts =>
      have each : ∀ s ∈ parts, s.Settled := settled
      simp [formShape, value_memberShapes each]
  | merged conflicts properties required additional =>
      have each : ∀ s ∈ objectMembers properties additional, s.Settled := settled
      simp [formShape, value_objectShape each]
  | typed type =>
      have each : ∀ s ∈ type.members, s.Settled := settled
      simp [formShape, value_typeShape each]
  | oneOfTypes types =>
      have each : ∀ type ∈ types, (typeShape place type).value = (typeShape none type).value := by
        intro type listed
        have inner : ∀ s ∈ type.members, s.Settled := fun s member =>
          settled s (List.mem_flatMap_of_mem listed member)
        rw [value_typeShape inner, value_typeShape inner]
      simpa [formShape] using each

/-- **The shape of a schema is the same at every place.** -/
theorem value_shape (s : Schema) (place : Option String) :
    (s.shape place).value = s.outline := by
  suffices s.Settled from this place
  induction s using form_induction with
  | step s inner =>
      intro place
      simp only [outline, shape, Noted.value_bind, value_formShape inner]

/-! ## The equations of outlines -/

/-- Null is admitted on top of the outline of the form. -/
theorem outline_eq (s : Schema) :
    s.outline = if s.admitsNull then s.form.outline.orNull else s.form.outline := by
  simp only [outline, shape, Noted.value_bind, Noted.value_pure, Form.outline]

end Schema

/-- Objects, without a condition on the schemas inside. -/
@[simp] theorem TypeForm.outline_object (properties : List (String × Schema))
    (required : List String) (additional : Option (Additional Schema)) :
    (object properties required additional).outline =
      outlineObject properties required additional := by
  simp only [outline, Schema.typeShape]
  exact Schema.value_objectShape (fun s _ => s.value_shape) none required

/-- Arrays that say nothing about their items have items of any value. -/
@[simp] theorem TypeForm.outline_array (items : Option Schema) :
    (array items).outline = .array ((items.map Schema.outline).getD .unknown) := by
  cases items <;> simp [outline, Schema.typeShape, Schema.value_shape]

@[simp] theorem TypeForm.outline_primitive (type : Primitive) :
    (primitive type).outline = .primitive type := by
  simp [outline, Schema.typeShape]

@[simp] theorem TypeForm.outline_binary : binary.outline = .binary := by
  simp [outline, Schema.typeShape]

/-- A type that is not supported has the shape of any value. -/
@[simp] theorem TypeForm.outline_unsupported : unsupported.outline = .unknown := by
  simp [outline, Schema.typeShape]

namespace Form

/-- What is no schema has the shape of any value. -/
@[simp] theorem outline_malformed (reason : String) : (malformed reason).outline = .unknown := by
  simp [outline, Schema.formShape]

@[simp] theorem outline_ref (name : String) : (ref name).outline = .ref name := by
  simp [outline, Schema.formShape]

@[simp] theorem outline_null : null.outline = .null := by
  simp [outline, Schema.formShape]

@[simp] theorem outline_enumeration (values : List Json) :
    (enumeration values).outline = .enumeration values := by
  simp [outline, Schema.formShape]

@[simp] theorem outline_literal (value : Json) : (literal value).outline = .literal value := by
  simp [outline, Schema.formShape]

/-- A union has the outlines of its members as variants, and null among them is admitted on top. -/
@[simp] theorem outline_union (keyword : String) (members : List Schema) :
    (union keyword members).outline = Schema.unionOf (members.map Schema.outline) := by
  simp [outline, Schema.formShape, Schema.value_memberShapes fun s _ => s.value_shape]

/-- A single part stands for itself. -/
@[simp] theorem outline_only (part : Schema) : (only part).outline = part.outline := by
  simp [outline, Schema.formShape, Schema.value_shape]

@[simp] theorem outline_intersection (parts : List Schema) :
    (intersection parts).outline = .intersection (parts.map Schema.outline) := by
  simp [outline, Schema.formShape, Schema.value_memberShapes fun s _ => s.value_shape]

/-- Merged parts are one object. The contradictions among them show in the notes alone. -/
@[simp] theorem outline_merged (conflicts : Nat) (properties : List (String × Schema))
    (required : List String) (additional : Option (Additional Schema)) :
    (merged conflicts properties required additional).outline =
      outlineObject properties required additional := by
  simp only [outline, Schema.formShape, Noted.value_bind]
  exact Schema.value_objectShape (fun s _ => s.value_shape) none required

@[simp] theorem outline_typed (type : TypeForm) : (typed type).outline = type.outline := by
  simp [outline, Schema.formShape, TypeForm.outline]

/-- Several types are a union of what each of them is. -/
@[simp] theorem outline_oneOfTypes (types : List TypeForm) :
    (oneOfTypes types).outline = .union (types.map TypeForm.outline) := by
  simp [outline, Schema.formShape, TypeForm.outline]

end Form

end ClientGen
