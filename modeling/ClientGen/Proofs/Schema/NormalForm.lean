import ClientGen.Proofs.Naming.Grammar
import ClientGen.Proofs.Schema.Outline
import ClientGen.Proofs.Shape.Nodes

/-!
# The normal form of shapes

Shapes of schemas say nothing twice: null is admitted by one node at the outside of what admits it,
unions have variants and none of them is null alone, intersections have at least two parts, and
references are names of models.

* `Shape.Regular` — what the normal form asks of a single node.
* `Shape.Normal` — every node of a shape is regular.
* `Form.Proper` — what weighing the keywords guarantees: no union without members, no intersection
  of fewer than two parts.
* `Schema.normal_shape` — the shape of every schema is in normal form.

Null is admitted by `Shape.orNull` alone and unions of members are built by `Schema.unionOf` alone,
so each rule is established in one place.
-/

namespace ClientGen

/-! ## Normal shapes -/

namespace Shape

/-- What the normal form asks of a single node. -/
def Regular : Shape → Prop
  | .nullable inner => inner ≠ .null ∧ ∀ shape, inner ≠ .nullable shape
  | .union variants => variants ≠ [] ∧ .null ∉ variants
  | .intersection parts => 2 ≤ parts.length
  | .ref name => Naming.IsName Text.isAsciiCapital name.toList
  | _ => True

/-- **The normal form**: every node is regular. -/
def Normal (shape : Shape) : Prop :=
  ∀ node ∈ shape.nodes, node.Regular

/-- A shape is normal if it is regular and its children are normal. -/
theorem normal_iff {shape : Shape} :
    shape.Normal ↔ shape.Regular ∧ ∀ child ∈ shape.children, child.Normal :=
  forall_nodes_iff

/-- A regular shape without children is normal. -/
theorem normal_of_childless {shape : Shape} (regular : shape.Regular)
    (childless : shape.children = []) : shape.Normal :=
  normal_iff.mpr ⟨regular, by simp [childless]⟩

theorem normal_union {variants : List Shape} (nonempty : variants ≠ [])
    (notNull : .null ∉ variants) (normal : ∀ variant ∈ variants, variant.Normal) :
    (union variants).Normal :=
  normal_iff.mpr ⟨⟨nonempty, notNull⟩, normal⟩

/-- Admitting null keeps the normal form. -/
theorem normal_orNull {shape : Shape} (normal : shape.Normal) : shape.orNull.Normal := by
  unfold orNull
  split
  · exact normal
  · exact normal
  · rename_i notNullable notNull
    refine normal_iff.mpr ⟨⟨notNull, notNullable⟩, fun child member => ?_⟩
    rwa [List.mem_singleton.mp member]

theorem normal_object {properties : OrderedMap Shape} {required : List String}
    {extra : Extra Shape} (listed : ∀ property ∈ properties, property.2.Normal)
    (further : ∀ values ∈ extra.allowed?, values.Normal) :
    (object properties required extra).Normal := by
  refine normal_iff.mpr ⟨trivial, fun child member => ?_⟩
  rcases List.mem_append.mp member with inProperties | inExtra
  · obtain ⟨property, present, rfl⟩ := List.mem_map.mp inProperties
    exact listed property present
  · exact further child (Option.mem_toList.mp inExtra)

end Shape

/-! ## Unions of members -/

/-- A union of some normal shapes is normal. -/
theorem Schema.normal_unionOf {shapes : List Shape} (nonempty : shapes ≠ [])
    (normal : ∀ shape ∈ shapes, shape.Normal) : (unionOf shapes).Normal := by
  have kept : ∀ shape ∈ shapes.filter (!·.isNull), shape.Normal ∧ shape ≠ .null := by
    intro shape member
    obtain ⟨listed, notNull⟩ := List.mem_filter.mp member
    exact ⟨normal shape listed, fun isNull => by simp [isNull, Shape.isNull, Shape.null] at notNull⟩
  simp only [unionOf]
  split
  · -- Nothing was dropped, so no member is null.
    rename_i full
    have noneNull := List.length_filter_eq_length_iff.mp full
    refine Shape.normal_union nonempty (fun member => ?_) normal
    simpa [Shape.isNull, Shape.null] using noneNull .null member
  · split
    · exact Shape.normal_of_childless trivial rfl
    · rename_i only alone
      exact Shape.normal_orNull (kept only (by simp [alone])).1
    · rename_i several _
      refine Shape.normal_orNull (Shape.normal_union several (fun member => ?_) fun v member => ?_)
      · exact (kept _ member).2 rfl
      · exact (kept v member).1

/-! ## Proper forms -/

/-- **What weighing the keywords guarantees**: unions have members, intersections have at least two
parts, and references are names of models. -/
def Form.Proper : Form → Prop
  | .ref name => Naming.IsName Text.isAsciiCapital name.toList
  | .union _ members => members ≠ []
  | .intersection parts => 2 ≤ parts.length
  | .oneOfTypes types => types ≠ []
  | _ => True

namespace Keywords

theorem proper_typeForm (k : Keywords Schema) : k.typeForm.Proper := by
  unfold typeForm
  split
  · trivial
  split
  · trivial
  split
  · trivial
  split
  · trivial
  · exact List.cons_ne_nil _ _
  · trivial

theorem proper_partsForm {parts : List Schema} (nonempty : parts ≠ []) :
    (partsForm parts).Proper := by
  unfold partsForm
  split
  · trivial
  split
  · trivial
  · rename_i notAlone
    -- Neither empty nor a single part.
    match parts, nonempty, notAlone with
    | [part], _, notAlone => exact absurd rfl (notAlone part)
    | _ :: _ :: _, _, _ => exact Nat.le_add_left 2 _

theorem proper_partsOrType (k : Keywords Schema) : k.partsOrType.Proper := by
  unfold partsOrType
  split
  · exact proper_partsForm (List.cons_ne_nil _ _)
  · exact proper_typeForm k

theorem proper_anyOfOrBelow (k : Keywords Schema) : k.anyOfOrBelow.Proper := by
  unfold anyOfOrBelow
  split
  · split
    · exact proper_partsOrType k
    · exact List.cons_ne_nil _ _
  · exact proper_partsOrType k

theorem proper_unionOrBelow (k : Keywords Schema) : k.unionOrBelow.Proper := by
  unfold unionOrBelow
  split
  · exact List.cons_ne_nil _ _
  · exact proper_anyOfOrBelow k

theorem proper_form (k : Keywords Schema) : k.form.Proper := by
  unfold form
  split
  · trivial
  split
  · trivial
  · exact proper_unionOrBelow k

end Keywords

/-- The form of every schema is proper. -/
theorem Schema.proper_form (s : Schema) : s.form.Proper := by
  cases s with
  | malformed reason => trivial
  | keywords k =>
      simp only [form]
      split
      · exact Naming.isName_pascalCase _
      split
      · trivial
      · exact k.withoutNull.proper_form

/-! ## Outlines of proper forms -/

theorem normal_outlineObject {properties : List (String × Schema)}
    {additional : Option (Additional Schema)}
    (inner : ∀ s ∈ objectMembers properties additional, s.outline.Normal)
    (required : List String) : (outlineObject properties required additional).Normal := by
  refine Shape.normal_object (fun property present => ?_) fun values allowed => ?_
  · obtain ⟨⟨name, s⟩, listed, rfl⟩ := List.mem_map.mp present
    exact inner s (List.mem_append_left _ (List.mem_map_of_mem listed))
  · match additional with
    | none => cases allowed
    | some (.flag false) => cases allowed
    | some (.flag true) =>
        obtain rfl : Shape.unknown = values := by simpa [outlineExtra, Extra.allowed?] using allowed
        exact Shape.normal_of_childless trivial rfl
    | some (.schema s) =>
        obtain rfl : s.outline = values := by simpa [outlineExtra, Extra.allowed?] using allowed
        exact inner s (List.mem_append_right _ (by simp [Additional.schema?]))

theorem TypeForm.normal_outline {type : TypeForm}
    (inner : ∀ s ∈ type.members, s.outline.Normal) : type.outline.Normal := by
  cases type with
  | object properties required additional =>
      rw [outline_object]
      exact normal_outlineObject inner required
  | array items =>
      rw [outline_array]
      refine Shape.normal_iff.mpr ⟨trivial, fun child member => ?_⟩
      rw [List.mem_singleton.mp member]
      cases items with
      | none => exact Shape.normal_of_childless trivial rfl
      | some items => exact inner items (List.mem_singleton_self _)
  | primitive type => rw [outline_primitive]; exact Shape.normal_of_childless trivial rfl
  | binary => rw [outline_binary]; exact Shape.normal_of_childless trivial rfl
  | unsupported => rw [outline_unsupported]; exact Shape.normal_of_childless trivial rfl

/-- What one of several types asks for is never null alone. -/
theorem TypeForm.outline_ne_null (type : TypeForm) : type.outline ≠ .null := by
  cases type <;> simp [outlineObject, Shape.null]

theorem Form.normal_outline {form : Form} (proper : form.Proper)
    (inner : ∀ s ∈ form.members, s.outline.Normal) : form.outline.Normal := by
  cases form with
  | union keyword members =>
      have nonempty : members ≠ [] := proper
      rw [outline_union]
      refine Schema.normal_unionOf (by simpa using nonempty) fun shape member => ?_
      obtain ⟨s, listed, rfl⟩ := List.mem_map.mp member
      exact inner s listed
  | only part =>
      rw [outline_only]
      exact inner part (List.mem_singleton_self _)
  | intersection parts =>
      rw [outline_intersection]
      refine Shape.normal_iff.mpr ⟨?_, fun shape member => ?_⟩
      · show 2 ≤ (parts.map Schema.outline).length
        rwa [List.length_map]
      · obtain ⟨s, listed, rfl⟩ := List.mem_map.mp member
        exact inner s listed
  | merged conflicts properties required additional =>
      rw [outline_merged]
      exact normal_outlineObject inner required
  | typed type =>
      rw [outline_typed]
      exact TypeForm.normal_outline inner
  | oneOfTypes types =>
      have nonempty : types ≠ [] := proper
      rw [outline_oneOfTypes]
      refine Shape.normal_union (by simpa using nonempty) (fun null => ?_) fun shape member => ?_
      · obtain ⟨type, _, isNull⟩ := List.mem_map.mp null
        exact type.outline_ne_null isNull
      · obtain ⟨type, listed, rfl⟩ := List.mem_map.mp member
        exact TypeForm.normal_outline fun s below => inner s (List.mem_flatMap_of_mem listed below)
  | ref name =>
      rw [outline_ref]
      exact Shape.normal_of_childless proper rfl
  | malformed reason => rw [outline_malformed]; exact Shape.normal_of_childless trivial rfl
  | null => rw [outline_null]; exact Shape.normal_of_childless trivial rfl
  | enumeration values => rw [outline_enumeration]; exact Shape.normal_of_childless trivial rfl
  | literal value => rw [outline_literal]; exact Shape.normal_of_childless trivial rfl

/-- The outline of every schema is in normal form. -/
theorem Schema.normal_outline (s : Schema) : s.outline.Normal := by
  induction s using form_induction with
  | step s inner =>
      have normal := Form.normal_outline s.proper_form inner
      rw [outline_eq]
      split
      · exact Shape.normal_orNull normal
      · exact normal

/-- **The shape of every schema is in normal form**, whatever the schema says and wherever it
stands. -/
theorem Schema.normal_shape (s : Schema) (place : Option String) :
    (s.shape place).value.Normal := by
  rw [value_shape]
  exact s.normal_outline

end ClientGen
