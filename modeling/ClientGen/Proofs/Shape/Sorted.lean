import ClientGen.Document.Normal
import ClientGen.Proofs.Naming.Runs
import ClientGen.Proofs.OrderedMap.Agreement
import ClientGen.Proofs.Shape.Nodes

/-!
# Shapes in canonical order

`Shape.sorted` reorders the properties and the required names of every object inside a shape. It
keeps the kind of each shape, so it passes through the operations that look at kinds only.

* `Shape.sorted_object` and its siblings — the equations of `Shape.sorted`.
* `Shape.sorted_orNull`, `Schema.sorted_unionOf` — sorting before and after null is admitted.
* `Shape.PropertiesDistinct` — no object inside a shape has a property twice.
* `Shape.Canonical` — in every object inside a shape the names ascend.
* `Shape.canonical_sorted` — the canonical order of a shape of the first kind is of the second kind.

Required names never repeat in the canonical order. Property names do not repeat if they did not
before.
-/

namespace ClientGen

namespace Shape

/-! ## The equations of canonical order -/

@[simp] theorem sorted_primitive (type : Primitive) : (primitive type).sorted = .primitive type :=
  rfl

@[simp] theorem sorted_literal (value : Json) : (literal value).sorted = .literal value :=
  rfl

@[simp] theorem sorted_enumeration (values : List Json) :
    (enumeration values).sorted = .enumeration values :=
  rfl

/-- The order inside the items of an array is canonical as well. -/
@[simp] theorem sorted_array (items : Shape) : (array items).sorted = .array items.sorted :=
  rfl

@[simp] theorem sorted_ref (name : String) : (ref name).sorted = .ref name :=
  rfl

@[simp] theorem sorted_nullable (inner : Shape) :
    (nullable inner).sorted = .nullable inner.sorted :=
  rfl

@[simp] theorem sorted_binary : binary.sorted = .binary :=
  rfl

@[simp] theorem sorted_unknown : unknown.sorted = .unknown :=
  rfl

/-- A union keeps the order of its variants: it shows in the type. -/
@[simp] theorem sorted_union (variants : List Shape) :
    (union variants).sorted = .union (variants.map sorted) := by
  show Shape.union (foldAll _ variants) = _
  rw [foldAll_eq_map]
  rfl

/-- An intersection keeps the order of its parts. -/
@[simp] theorem sorted_intersection (parts : List Shape) :
    (intersection parts).sorted = .intersection (parts.map sorted) := by
  show Shape.intersection (foldAll _ parts) = _
  rw [foldAll_eq_map]
  rfl

/-- **The properties of an object are sorted by name**, and required names are sorted and no longer
repeated. -/
@[simp] theorem sorted_object (properties : OrderedMap Shape) (required : List String)
    (extra : Extra Shape) :
    (object properties required extra).sorted =
      .object (properties.mapValues sorted).sorted (Naming.ascending required)
        (extra.map sorted) := by
  show Shape.object (foldProperties _ properties).sorted _ (foldExtra _ extra) = _
  rw [foldProperties_eq_mapValues, foldExtra_eq_map]
  rfl

/-! ## Null -/

/-- Sorting leaves null alone, and makes nothing else null. -/
@[simp] theorem isNull_sorted (s : Shape) : s.sorted.isNull = s.isNull := by
  cases s with
  | object properties required extra => rw [sorted_object]; rfl
  | union variants => rw [sorted_union]; rfl
  | intersection parts => rw [sorted_intersection]; rfl
  | _ => rfl

/-- Admitting null does not depend on the order inside a shape. -/
theorem sorted_orNull (s : Shape) : s.orNull.sorted = s.sorted.orNull := by
  cases s with
  | literal value => cases value <;> rfl
  | object properties required extra => simp [orNull]
  | union variants => simp [orNull]
  | intersection parts => simp [orNull]
  | _ => rfl

end Shape

/-- **A union of sorted shapes is the sorted union.** -/
theorem Schema.sorted_unionOf (shapes : List Shape) :
    (unionOf shapes).sorted = unionOf (shapes.map Shape.sorted) := by
  have kept : (shapes.map Shape.sorted).filter (!·.isNull) =
      (shapes.filter (!·.isNull)).map Shape.sorted := by
    rw [List.filter_map]
    congr 2
    funext s
    simp
  unfold unionOf
  simp only [kept, List.length_map]
  split
  · exact Shape.sorted_union shapes
  · cases shapes.filter (!·.isNull) with
    | nil => rfl
    | cons only rest =>
        cases rest with
        | nil => exact Shape.sorted_orNull only
        | cons second rest => simp [Shape.sorted_orNull]

end ClientGen

namespace ClientGen.Shape

/-! ## Names that ascend -/

/-- No property of a single node stands twice. -/
def KeysDistinct : Shape → Prop
  | .object properties _ _ => OrderedMap.Distinct properties
  | _ => True

/-- **No property stands twice**, in any node. -/
def PropertiesDistinct (shape : Shape) : Prop :=
  ∀ node ∈ shape.nodes, node.KeysDistinct

/-- The names of a single node ascend. -/
def Ascending : Shape → Prop
  | .object properties required _ =>
    (OrderedMap.keys properties).Pairwise (· < ·) ∧ required.Pairwise (· < ·)
  | _ => True

/-- **The names ascend** in every node. -/
def Canonical (shape : Shape) : Prop :=
  ∀ node ∈ shape.nodes, node.Ascending

/-- A shape has distinct properties if it does itself and its children do. -/
theorem propertiesDistinct_iff {shape : Shape} :
    shape.PropertiesDistinct ↔
      shape.KeysDistinct ∧ ∀ child ∈ shape.children, child.PropertiesDistinct :=
  forall_nodes_iff

theorem canonical_iff {shape : Shape} :
    shape.Canonical ↔ shape.Ascending ∧ ∀ child ∈ shape.children, child.Canonical :=
  forall_nodes_iff

/-- **The names of a sorted node ascend.** -/
theorem ascending_sorted {shape : Shape} (distinct : shape.KeysDistinct) :
    shape.sorted.Ascending := by
  cases shape with
  | object properties required extra =>
      have images : (OrderedMap.mapValues sorted properties).Distinct :=
        OrderedMap.Distinct.mapValues distinct sorted
      rw [sorted_object]
      exact ⟨images.pairwise_keys_sorted, Naming.pairwise_ascending required⟩
  | union variants => rw [sorted_union]; trivial
  | intersection parts => rw [sorted_intersection]; trivial
  | primitive type => trivial
  | literal value => trivial
  | enumeration values => trivial
  | array items => trivial
  | ref name => trivial
  | nullable inner => trivial
  | binary => trivial
  | unknown => trivial

/-- **The children of a sorted shape** are its children in their canonical order. -/
theorem exists_of_mem_children_sorted {shape child : Shape}
    (member : child ∈ shape.sorted.children) : ∃ inner ∈ shape.children, inner.sorted = child := by
  cases shape with
  | object properties required extra =>
      rw [sorted_object] at member
      rcases List.mem_append.mp member with listed | further
      · obtain ⟨property, present, rfl⟩ := List.mem_map.mp listed
        have image := (OrderedMap.sorted_perm _).mem_iff.mp present
        obtain ⟨⟨name, inner⟩, given, rfl⟩ := List.mem_map.mp image
        exact ⟨inner, List.mem_append_left _ (List.mem_map.mpr ⟨_, given, rfl⟩), rfl⟩
      · cases extra with
        | unstated => cases further
        | forbidden => cases further
        | allowed values =>
            obtain rfl : child = values.sorted := by simpa [Extra.map, Extra.allowed?] using further
            exact ⟨values, List.mem_append_right _ (List.mem_singleton_self _), rfl⟩
  | union variants =>
      rw [sorted_union] at member
      exact List.mem_map.mp member
  | intersection parts =>
      rw [sorted_intersection] at member
      exact List.mem_map.mp member
  | array items => exact ⟨items, List.mem_singleton_self _, (List.mem_singleton.mp member).symm⟩
  | nullable inner => exact ⟨inner, List.mem_singleton_self _, (List.mem_singleton.mp member).symm⟩
  | primitive type => cases member
  | literal value => cases member
  | enumeration values => cases member
  | ref name => cases member
  | binary => cases member
  | unknown => cases member

/-- **The names ascend in the canonical order** of a shape in which no property stands twice. -/
theorem canonical_sorted {shape : Shape} (distinct : shape.PropertiesDistinct) :
    shape.sorted.Canonical := by
  induction shape using children_induction with
  | step shape ih =>
      obtain ⟨own, inside⟩ := propertiesDistinct_iff.mp distinct
      refine canonical_iff.mpr ⟨ascending_sorted own, fun child member => ?_⟩
      obtain ⟨inner, given, rfl⟩ := exists_of_mem_children_sorted member
      exact ih inner given (inside inner given)

end ClientGen.Shape
