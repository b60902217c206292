import ClientGen.Proofs.Schema.Nodes
import ClientGen.Proofs.Shape.Unknowns

/-!
# Warnings and unknown nodes

What a shape cannot express becomes an unknown node, and a warning says so. So the unknown nodes of
a shape are accounted for: each of them comes with a warning of its own, unless it stands for items
or further members of which the schema says nothing, and no warning is without its node.

* `Diagnostic.countUnsupported` — the number of warnings.
* `Tally` — a number of warnings lies between two numbers of nodes.
* `Schema.tally_shape` — the warnings of a schema lie between the exposed unknown nodes and all
  unknown nodes of its shape, and reach the latter if the schema leaves nothing open.

Tallies are added up in the way in which shapes are put together and notes are joined.
-/

namespace ClientGen

/-- **The number of warnings that something cannot be expressed.** -/
def Diagnostic.countUnsupported (notes : List Diagnostic) : Nat :=
  notes.countP (·.code == "schema.unsupported")

open Diagnostic

/-! ## Tallies -/

/-- **A count between two bounds**, which reaches the upper one under a condition. -/
structure Tally (exact : Prop) (low count high : Nat) : Prop where
  /-- The count is not below the lower bound. -/
  low_le : low ≤ count
  /-- The count is not above the upper bound. -/
  le_high : count ≤ high
  /-- Under the condition the count is the upper bound. -/
  eq_high : exact → count = high

namespace Tally

variable {exact : Prop} {low low' count count' high high' : Nat}

/-- A count that is both bounds. -/
theorem same (exact : Prop) (n : Nat) : Tally exact n n n :=
  ⟨Nat.le_refl n, Nat.le_refl n, fun _ => rfl⟩

/-- Tallies are added bound by bound. -/
theorem add (first : Tally exact low count high) (second : Tally exact low' count' high') :
    Tally exact (low + low') (count + count') (high + high') where
  low_le := Nat.add_le_add first.low_le second.low_le
  le_high := Nat.add_le_add first.le_high second.le_high
  eq_high condition := by rw [first.eq_high condition, second.eq_high condition]

/-- The lower bound may be any smaller number, and the upper one is still reached. -/
theorem lower (tally : Tally exact low count high) (less : low' ≤ low) :
    Tally exact low' count high :=
  ⟨Nat.le_trans less tally.low_le, tally.le_high, tally.eq_high⟩

/-- The upper bound is reached under any stronger condition. -/
theorem mono {condition : Prop} (tally : Tally exact low count high)
    (stronger : condition → exact) : Tally condition low count high :=
  ⟨tally.low_le, tally.le_high, fun holds => tally.eq_high (stronger holds)⟩

/-- A node without a warning, where the condition does not hold. -/
theorem uncounted (open_ : ¬ exact) : Tally exact 0 0 1 :=
  ⟨Nat.le_refl 0, Nat.zero_le 1, fun condition => absurd condition open_⟩

end Tally

namespace Schema

variable {exact : Prop}

/-- The warnings of a schema lie between the exposed and all unknown nodes of its outline. -/
def Counted (exact : Prop) (s : Schema) : Prop :=
  ∀ place, Tally exact s.outline.exposedUnknowns (countUnsupported (s.shape place).notes)
    s.outline.unknowns

/-! ## Numbers of notes -/

@[simp] theorem countUnsupported_nil : countUnsupported [] = 0 := rfl

@[simp] theorem countUnsupported_append (notes notes' : List Diagnostic) :
    countUnsupported (notes ++ notes') = countUnsupported notes + countUnsupported notes' :=
  List.countP_append

/-- What is not supported is noted once. -/
@[simp] theorem countUnsupported_unsupported (place : Option String) (reason : String) :
    countUnsupported (unsupported place reason).notes = 1 := rfl

/-- Contradictions are noted under a name of their own. -/
@[simp] theorem countUnsupported_conflicting (place : Option String) (conflicts : Nat) :
    countUnsupported (conflicting place conflicts).notes = 0 := by
  induction conflicts with
  | zero => rfl
  | succ conflicts ih =>
      have first : countUnsupported (Noted.warn "schema.allOf.additionalProperties"
          "Conflicting additionalProperties in allOf; using the last value." place).notes = 0 := rfl
      rw [conflicting, Noted.notes_bind, countUnsupported_append, first, ih]

/-! ## Unions of members -/

/-- A number that is 0 for null, adds up in unions and does not change when null is admitted adds up
in unions of members. -/
theorem sum_unionOf {f : Shape → Nat} (null : f .null = 0)
    (union : ∀ variants, f (.union variants) = (variants.map f).sum)
    (orNull : ∀ shape, f shape.orNull = f shape) (shapes : List Shape) :
    f (unionOf shapes) = (shapes.map f).sum := by
  have kept : ((shapes.filter (!·.isNull)).map f).sum = (shapes.map f).sum := by
    induction shapes with
    | nil => rfl
    | cons shape shapes ih =>
        cases isNull : shape.isNull with
        | false => simp [isNull, ih]
        | true =>
            obtain rfl := Shape.isNull_iff.mp isNull
            simp [isNull, ih, null]
  rw [← kept, unionOf]
  split
  · rename_i full
    rw [union, List.filter_eq_self.mpr (List.length_filter_eq_length_iff.mp full)]
  split
  · rename_i none
    rw [none, null]
    rfl
  · rename_i only alone
    rw [alone, orNull]
    simp
  · rw [orNull, union]

/-! ## Tallies of forms -/

/-- Members of a list are exposed, every one of them. -/
theorem tally_memberShapes {members : List Schema} (each : ∀ s ∈ members, s.Counted exact)
    (place : Option String) (keyword : String) (position : Nat) :
    Tally exact ((members.map outline).map Shape.exposedUnknowns).sum
      (countUnsupported (memberShapes place keyword position members).notes)
      ((members.map outline).map Shape.unknowns).sum := by
  induction members generalizing position with
  | nil => simpa [memberShapes] using Tally.same exact 0
  | cons s members ih =>
      have first := each s (List.mem_cons_self ..)
      have rest := ih (fun t member => each t (List.mem_cons_of_mem _ member)) (position + 1)
      simpa [memberShapes] using (first _).add rest

/-- Properties are exposed, every one of them. -/
theorem tally_propertyShapes {properties : List (String × Schema)}
    (each : ∀ property ∈ properties, property.2.Counted exact) (place : Option String) :
    Tally exact
      (((OrderedMap.mapValues outline properties).map (·.2)).map Shape.exposedUnknowns).sum
      (countUnsupported (propertyShapes place properties).notes)
      (((OrderedMap.mapValues outline properties).map (·.2)).map Shape.unknowns).sum := by
  induction properties with
  | nil => simpa [propertyShapes, OrderedMap.mapValues] using Tally.same exact 0
  | cons property properties ih =>
      obtain ⟨name, s⟩ := property
      have first : s.Counted exact := each (name, s) (List.mem_cons_self ..)
      have rest := ih fun p member => each p (List.mem_cons_of_mem _ member)
      simp only [OrderedMap.mapValues] at rest ⊢
      simpa [propertyShapes] using (first _).add rest

/-- Further members are not exposed, so the lower bound counts what is inside them. Where they are
allowed and no schema describes them, they are unknown without a warning. -/
theorem tally_extraShape {additional : Option (Additional Schema)}
    (each : ∀ s ∈ additional.bind (·.schema?), s.Counted exact)
    (closed : exact → additional ≠ some (.flag true)) (place : Option String) :
    Tally exact ((outlineExtra additional).allowed?.toList.map Shape.innerUnknowns).sum
      (countUnsupported (extraShape place additional).notes)
      ((outlineExtra additional).allowed?.toList.map Shape.unknowns).sum := by
  match additional with
  | none => simpa [extraShape, outlineExtra, Extra.allowed?] using Tally.same exact 0
  | some (.flag false) => simpa [extraShape, outlineExtra, Extra.allowed?] using Tally.same exact 0
  | some (.flag true) =>
      simpa [extraShape, outlineExtra, Extra.allowed?] using
        Tally.uncounted fun condition => closed condition rfl
  | some (.schema values) =>
      have inner := each values (by simp [Additional.schema?])
      simpa [extraShape, outlineExtra, Extra.allowed?] using
        (inner _).lower values.outline.innerUnknowns_le

/-- Objects add up their properties and further members. -/
theorem tally_objectShape {properties : List (String × Schema)}
    {additional : Option (Additional Schema)}
    (each : ∀ s ∈ objectMembers properties additional, s.Counted exact)
    (closed : exact → additional ≠ some (.flag true)) (place : Option String)
    (required : List String) :
    Tally exact (outlineObject properties required additional).exposedUnknowns
      (countUnsupported (objectShape place properties required additional).notes)
      (outlineObject properties required additional).unknowns := by
  have listed : ∀ property ∈ properties, property.2.Counted exact := fun property present =>
    each _ (List.mem_append_left _ (List.mem_map_of_mem present))
  have further : ∀ s ∈ additional.bind (·.schema?), s.Counted exact := fun s present =>
    each s (List.mem_append_right _ (Option.mem_toList.mpr present))
  have sum := (tally_propertyShapes listed place).add (tally_extraShape further closed place)
  simpa [objectShape, outlineObject] using sum

theorem tally_typeShape {type : TypeForm} (each : ∀ s ∈ type.members, s.Counted exact)
    (closed : exact → ¬ type.IsOpen) (place : Option String) :
    Tally exact type.outline.exposedUnknowns (countUnsupported (typeShape place type).notes)
      type.outline.unknowns := by
  cases type with
  | object properties required additional =>
      rw [TypeForm.outline_object, typeShape]
      exact tally_objectShape each closed place required
  | array items =>
      cases items with
      -- nothing is said of the items: a node without a warning, and not an exposed one
      | none =>
          simpa [typeShape] using Tally.uncounted fun condition => closed condition rfl
      | some items =>
          have inner : items.Counted exact := each items (by simp [TypeForm.members])
          simpa [typeShape] using (inner _).lower items.outline.innerUnknowns_le
  | primitive type =>
      rw [TypeForm.outline_primitive, typeShape]
      exact Tally.same exact 0
  | binary =>
      rw [TypeForm.outline_binary, typeShape]
      exact Tally.same exact 0
  | unsupported =>
      rw [TypeForm.outline_unsupported, typeShape]
      exact Tally.same exact 1

/-- Several types look at the keywords once for each of them, and notes and nodes come as often. -/
theorem tally_typeShapes {types : List TypeForm}
    (each : ∀ s ∈ types.flatMap TypeForm.members, s.Counted exact)
    (closed : exact → ∀ type ∈ types, ¬ type.IsOpen) (place : Option String) :
    Tally exact ((types.map TypeForm.outline).map Shape.exposedUnknowns).sum
      (countUnsupported (types.flatMap fun type => (typeShape place type).notes))
      ((types.map TypeForm.outline).map Shape.unknowns).sum := by
  induction types with
  | nil => exact Tally.same exact 0
  | cons type types ih =>
      have first := tally_typeShape
        (fun s member => each s (List.mem_append_left _ member))
        (fun condition => closed condition type (List.mem_cons_self ..)) place
      have rest := ih (fun s member => each s (List.mem_append_right _ member))
        fun condition other listed => closed condition other (List.mem_cons_of_mem _ listed)
      simpa using first.add rest

/-- **The step of the induction**: a tally of a form from tallies of the schemas inside. -/
theorem tally_formShape {form : Form} (each : ∀ s ∈ form.members, s.Counted exact)
    (closed : exact → ∀ type ∈ form.types, ¬ type.IsOpen) (place : Option String) :
    Tally exact form.outline.exposedUnknowns (countUnsupported (formShape place form).notes)
      form.outline.unknowns := by
  cases form with
  | malformed reason =>
      rw [Form.outline_malformed, formShape]
      exact Tally.same exact 1
  | ref name =>
      rw [Form.outline_ref, formShape]
      exact Tally.same exact 0
  | null =>
      rw [Form.outline_null, formShape]
      exact Tally.same exact 0
  | enumeration values =>
      rw [Form.outline_enumeration, formShape]
      exact Tally.same exact 0
  | literal value =>
      rw [Form.outline_literal, formShape]
      -- one value is known even if it is null
      exact Tally.same exact 0
  | union keyword members =>
      rw [Form.outline_union,
        sum_unionOf rfl Shape.exposedUnknowns_union Shape.exposedUnknowns_orNull,
        sum_unionOf rfl Shape.unknowns_union Shape.unknowns_orNull]
      have every : ∀ s ∈ members, s.Counted exact := each
      simpa [formShape] using tally_memberShapes every place keyword 0
  | only part =>
      have inner : part.Counted exact := each part (List.mem_singleton_self _)
      simpa [formShape] using inner _
  | intersection parts =>
      have every : ∀ s ∈ parts, s.Counted exact := each
      simpa [formShape] using tally_memberShapes every place "allOf" 0
  | merged conflicts properties required additional =>
      have objects := tally_objectShape each
        (fun condition => closed condition _ (List.mem_singleton_self _)) place required
      simpa [formShape] using objects
  | typed type =>
      have alone := tally_typeShape each
        (fun condition => closed condition type (List.mem_singleton_self _)) place
      simpa [formShape] using alone
  | oneOfTypes types =>
      simpa [formShape] using tally_typeShapes each closed place

/-- **Unknown nodes are accounted for.** Every exposed unknown node of a shape comes with a warning,
every warning with an unknown node, and if the schema leaves nothing open there are as many warnings
as unknown nodes. -/
theorem tally_shape (s : Schema) (place : Option String) :
    (s.shape place).value.exposedUnknowns ≤ countUnsupported (s.shape place).notes ∧
      countUnsupported (s.shape place).notes ≤ (s.shape place).value.unknowns ∧
      (s.Explicit → countUnsupported (s.shape place).notes = (s.shape place).value.unknowns) := by
  suffices counted : s.Counted s.Explicit by
    rw [value_shape]
    exact ⟨(counted place).low_le, (counted place).le_high, (counted place).eq_high⟩
  clear place
  induction s using form_induction with
  | step s inner =>
      intro place
      have within := s.within_form
      have members : ∀ t ∈ s.form.members, t.Counted s.Explicit := fun t member at_ =>
        (inner t member at_).mono fun explicit => explicit.node (within.node t member)
      have form := tally_formShape members within.closed place
      -- null adds neither nodes nor notes
      rw [outline_eq]
      split <;> simpa [shape] using form

/-- Arrays of items that no schema describes. -/
def arrayOfMalformed : Schema :=
  .keywords { Keywords.blank with
    type := some (.single "array")
    items := some (.malformed "Boolean schemas are not supported.") }

/-- The array says what its items are, although no schema describes them. -/
theorem explicit_arrayOfMalformed : arrayOfMalformed.Explicit := by
  intro k node isOpen
  cases node with
  | self => simp [Keywords.IsOpen, Keywords.blank] at isOpen
  | inside member inner =>
      obtain rfl := List.mem_singleton.mp member
      cases inner with
      | inside member _ => cases member

/-- Unknown items are not exposed, and they come with a warning. -/
theorem tally_shape_arrayOfMalformed : arrayOfMalformed.Explicit ∧
    (arrayOfMalformed.shape none).value = .array .unknown ∧
    countUnsupported (arrayOfMalformed.shape none).notes = 1 := by
  have form : arrayOfMalformed.form =
      .typed (.array (some (.malformed "Boolean schemas are not supported."))) := rfl
  have value : (arrayOfMalformed.shape none).value = .array .unknown := by
    rw [value_shape, outline_eq, form, Form.outline_typed, TypeForm.outline_array]
    simp [outline_eq, Schema.form, arrayOfMalformed, admitsNull, keywords?, Keywords.listsNull,
      Keywords.blank]
  have exact := (tally_shape arrayOfMalformed none).2.2 explicit_arrayOfMalformed
  rw [value] at exact
  exact ⟨explicit_arrayOfMalformed, value, exact⟩

end Schema

end ClientGen
