import ClientGen.Proofs.Schema.Asking
import ClientGen.Proofs.Schema.Nodes
import ClientGen.Proofs.Shape.Sorted

/-!
# Schemas whose properties have distinct names

A schema lists its properties by name. If no schema inside a schema lists a name twice, neither does
an object of its outline.

* `Schema.KeysDistinct` — no node of a schema lists a property twice.
* `Schema.propertiesDistinct_outline` — then no object of the outline has a property twice.

Objects come from a schema as it stands or from a merge. In a merge names are distinct anyway, so
nothing has to be known about how parts overlap.
-/

namespace ClientGen

/-- **No node of a schema lists a property twice.** -/
def Schema.KeysDistinct (s : Schema) : Prop :=
  ∀ k, s.Node (.keywords k) → OrderedMap.Distinct (k.properties.getD [])

/-- What a type asks for has distinct properties. -/
def TypeForm.KeysDistinct : TypeForm → Prop
  | .object properties _ _ => OrderedMap.Distinct properties
  | _ => True

/-! ## Forms -/

/-- The properties of a merge are distinct. -/
theorem Merged.distinct_ofParts (parts : List Schema) :
    OrderedMap.Distinct (ofParts parts).properties := by
  have fold (m : Merged) (distinct : OrderedMap.Distinct m.properties) :
      OrderedMap.Distinct (parts.foldl add m).properties := by
    induction parts generalizing m with
    | nil => exact distinct
    | cons part parts ih =>
        refine ih (m.add part) ?_
        cases part with
        | malformed reason => exact distinct
        | keywords k => exact distinct.insertAll _
  exact fold _ List.nodup_nil

theorem Keywords.Names.keysDistinct {k : Keywords Schema} {type : TypeForm} (named : k.Names type)
    (distinct : OrderedMap.Distinct (k.properties.getD [])) : type.KeysDistinct := by
  cases named with
  | objects => exact distinct
  | required => exact List.nodup_nil
  | array => trivial
  | scalar name =>
      unfold TypeForm.scalar
      split <;> try split
      all_goals trivial
  | unsupported => trivial

/-- **The types that the form of a schema asks for** have distinct properties. -/
theorem Schema.keysDistinct_types {s : Schema} (distinct : s.KeysDistinct) :
    ∀ type ∈ s.form.types, type.KeysDistinct := by
  intro type listed
  cases s with
  | malformed reason => cases listed
  | keywords k =>
      have own := distinct k (.self _)
      have asks := k.asks_form
      generalize (keywords k).form = form at listed asks
      cases asks with
      | ref name => cases listed
      | null => cases listed
      | enumeration values => cases listed
      | literal value => cases listed
      | oneOf members => cases listed
      | anyOf members => cases listed
      | @merged parts _ =>
          obtain rfl := List.mem_singleton.mp listed
          exact Merged.distinct_ofParts parts
      | only part => cases listed
      | intersection parts => cases listed
      | typed named =>
          obtain rfl := List.mem_singleton.mp listed
          exact named.keysDistinct own
      | oneOfTypes named => exact (named type listed).keysDistinct own

/-! ## Outlines -/

namespace Shape

theorem propertiesDistinct_orNull {shape : Shape} (distinct : shape.PropertiesDistinct) :
    shape.orNull.PropertiesDistinct := by
  unfold orNull
  split
  · exact distinct
  · exact distinct
  · refine propertiesDistinct_iff.mpr ⟨trivial, fun child member => ?_⟩
    rwa [List.mem_singleton.mp member]

theorem propertiesDistinct_union {variants : List Shape}
    (each : ∀ variant ∈ variants, variant.PropertiesDistinct) :
    (union variants).PropertiesDistinct :=
  propertiesDistinct_iff.mpr ⟨trivial, each⟩

/-- A shape without children that is no object. -/
theorem propertiesDistinct_of_childless {shape : Shape} (own : shape.KeysDistinct)
    (childless : shape.children = []) : shape.PropertiesDistinct :=
  propertiesDistinct_iff.mpr ⟨own, by simp [childless]⟩

end Shape

open Shape

theorem Schema.propertiesDistinct_unionOf {shapes : List Shape}
    (each : ∀ shape ∈ shapes, shape.PropertiesDistinct) : (unionOf shapes).PropertiesDistinct := by
  have kept : ∀ shape ∈ shapes.filter (!·.isNull), shape.PropertiesDistinct :=
    fun shape member => each shape (List.mem_of_mem_filter member)
  simp only [unionOf]
  split
  · exact propertiesDistinct_union each
  · split
    · exact propertiesDistinct_of_childless trivial rfl
    · rename_i only alone
      exact propertiesDistinct_orNull (kept only (by simp [alone]))
    · exact propertiesDistinct_orNull (propertiesDistinct_union kept)

theorem propertiesDistinct_outlineObject {properties : List (String × Schema)}
    {additional : Option (Additional Schema)} (own : OrderedMap.Distinct properties)
    (inner : ∀ s ∈ objectMembers properties additional, s.outline.PropertiesDistinct)
    (required : List String) :
    (outlineObject properties required additional).PropertiesDistinct := by
  refine propertiesDistinct_iff.mpr ⟨own.mapValues Schema.outline, fun child member => ?_⟩
  rcases List.mem_append.mp member with listed | further
  · obtain ⟨property, present, rfl⟩ := List.mem_map.mp listed
    obtain ⟨⟨name, s⟩, given, rfl⟩ := List.mem_map.mp present
    exact inner s (List.mem_append_left _ (List.mem_map_of_mem given))
  · match additional with
    | none => cases further
    | some (.flag false) => cases further
    | some (.flag true) =>
        obtain rfl : child = .unknown := by simpa [outlineExtra, Extra.allowed?] using further
        exact propertiesDistinct_of_childless trivial rfl
    | some (.schema s) =>
        obtain rfl : child = s.outline := by simpa [outlineExtra, Extra.allowed?] using further
        exact inner s (List.mem_append_right _ (by simp [Additional.schema?]))

theorem TypeForm.propertiesDistinct_outline {type : TypeForm} (own : type.KeysDistinct)
    (inner : ∀ s ∈ type.members, s.outline.PropertiesDistinct) :
    type.outline.PropertiesDistinct := by
  cases type with
  | object properties required additional =>
      rw [outline_object]
      exact propertiesDistinct_outlineObject own inner required
  | array items =>
      rw [outline_array]
      refine propertiesDistinct_iff.mpr ⟨trivial, fun child member => ?_⟩
      rw [List.mem_singleton.mp member]
      cases items with
      | none => exact propertiesDistinct_of_childless trivial rfl
      | some items => exact inner items (List.mem_singleton_self _)
  | primitive type => rw [outline_primitive]; exact propertiesDistinct_of_childless trivial rfl
  | binary => rw [outline_binary]; exact propertiesDistinct_of_childless trivial rfl
  | unsupported => rw [outline_unsupported]; exact propertiesDistinct_of_childless trivial rfl

/-- **The outline of a form has distinct properties** if the types that it asks for do, and so do
the outlines of the schemas inside. -/
theorem Form.propertiesDistinct_outline {form : Form}
    (own : ∀ type ∈ form.types, type.KeysDistinct)
    (inner : ∀ s ∈ form.members, s.outline.PropertiesDistinct) :
    form.outline.PropertiesDistinct := by
  have images (members : List Schema) (each : ∀ s ∈ members, s.outline.PropertiesDistinct) :
      ∀ shape ∈ members.map Schema.outline, shape.PropertiesDistinct := by
    intro shape listed
    obtain ⟨s, member, rfl⟩ := List.mem_map.mp listed
    exact each s member
  cases form with
  | union keyword members =>
      rw [outline_union]
      exact Schema.propertiesDistinct_unionOf (images members inner)
  | only part =>
      rw [outline_only]
      exact inner part (List.mem_singleton_self _)
  | intersection parts =>
      rw [outline_intersection]
      exact propertiesDistinct_iff.mpr ⟨trivial, images parts inner⟩
  | merged conflicts properties required additional =>
      rw [outline_merged]
      exact propertiesDistinct_outlineObject (own _ (List.mem_singleton_self _)) inner required
  | typed type =>
      rw [outline_typed]
      exact type.propertiesDistinct_outline (own type (List.mem_singleton_self _)) inner
  | oneOfTypes types =>
      rw [outline_oneOfTypes]
      refine propertiesDistinct_union fun shape listed => ?_
      obtain ⟨type, member, rfl⟩ := List.mem_map.mp listed
      exact type.propertiesDistinct_outline (own type member) fun s inside =>
        inner s (List.mem_flatMap_of_mem member inside)
  | malformed reason => rw [outline_malformed]; exact propertiesDistinct_of_childless trivial rfl
  | ref name => rw [outline_ref]; exact propertiesDistinct_of_childless trivial rfl
  | null => rw [outline_null]; exact propertiesDistinct_of_childless trivial rfl
  | enumeration values =>
      rw [outline_enumeration]
      exact propertiesDistinct_of_childless trivial rfl
  | literal value => rw [outline_literal]; exact propertiesDistinct_of_childless trivial rfl

/-- **The outline of a schema has distinct properties** if no schema inside lists one twice. -/
theorem Schema.propertiesDistinct_outline {s : Schema} (distinct : s.KeysDistinct) :
    s.outline.PropertiesDistinct := by
  induction s using form_induction with
  | step s ih =>
      have inner : ∀ t ∈ s.form.members, t.outline.PropertiesDistinct := fun t member =>
        ih t member fun k inside => distinct k (((within_form s).node t member).trans inside)
      have whole := Form.propertiesDistinct_outline (keysDistinct_types distinct) inner
      rw [outline_eq]
      split
      · exact propertiesDistinct_orNull whole
      · exact whole

end ClientGen
