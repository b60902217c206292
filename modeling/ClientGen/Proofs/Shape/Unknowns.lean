import ClientGen.Proofs.Shape.Nodes
import Mathlib.Algebra.GroupWithZero.Nat

/-!
# Unknown nodes

A node that is the shape of any value stands for something that a schema does not say or that a
shape cannot express. The items of an array and the further members of an object are the two places
where a schema may say nothing; an unknown node everywhere else is *exposed*.

* `Shape.unknowns` — how many nodes of a shape are unknown.
* `Shape.exposedUnknowns` — how many of them are exposed.
* `Shape.innerUnknowns` — how many of the exposed ones are below the shape itself.

## Why there are three numbers

A schema that says nothing about its items is not at fault, and no note is written for it. A schema
that cannot be expressed is noted wherever it stands, in such a place as well. The notes of a schema
are therefore bounded on both sides: there are no more of them than unknown nodes, and an unknown
node that is exposed has one. Where every place that may say nothing does say something, the upper
bound is reached, and then unknown items count as well.

Whether a node is exposed depends on its parent and not on the node, so the exposed nodes of a shape
are not a sum over its children. The third number repairs this. `innerUnknowns` leaves the shape
itself out, and what is inside the items of an array is exposed in the array although the items are
not.

## Equations

All three numbers are counts over `Shape.nodes`, the list of all nodes below and including a shape.
Each of them is a sum over the shapes directly inside, and one equation for each kind of shape says
so. The equations rewrite towards the children, so a bound on shapes is proved by induction with
`simp` in each case. Admitting null changes none of the numbers: `orNull` leaves a shape as it is or
puts it below a node that is not counted and that exposes it.
-/

namespace ClientGen.Shape

/-- Whether a shape is that of any value. -/
def isUnknown : Shape → Bool
  | .unknown => true
  | _ => false

/-- **The shapes directly inside a shape whose schemas have to be there**: neither items nor further
members. -/
def exposed : Shape → List Shape
  | .array _ => []
  | .object properties _ _ => properties.map (·.2)
  | shape => shape.children

/-- **The number of unknown nodes.** -/
def unknowns (shape : Shape) : Nat :=
  shape.nodes.countP isUnknown

/-- The number of unknown nodes that are exposed inside the shape. -/
def innerUnknowns (shape : Shape) : Nat :=
  (shape.nodes.flatMap exposed).countP isUnknown

/-- **The number of exposed unknown nodes**, the shape itself among them. -/
def exposedUnknowns (shape : Shape) : Nat :=
  (shape :: shape.nodes.flatMap exposed).countP isUnknown

/-- A shape has the unknown nodes of its children, and itself if it is one. -/
theorem unknowns_eq (shape : Shape) :
    shape.unknowns =
      (shape.children.map unknowns).sum + if shape.isUnknown then 1 else 0 := by
  rw [unknowns, nodes_eq, List.countP_cons, List.countP_flatMap]
  rfl

/-- Inside a shape are exposed its own exposed children and what is exposed inside its children. -/
theorem innerUnknowns_eq (shape : Shape) :
    shape.innerUnknowns =
      shape.exposed.countP isUnknown + (shape.children.map innerUnknowns).sum := by
  rw [innerUnknowns, nodes_eq, List.flatMap_cons, List.countP_append, List.flatMap_assoc,
    List.countP_flatMap]
  rfl

/-- The shape itself is always exposed. -/
theorem exposedUnknowns_eq (shape : Shape) :
    shape.exposedUnknowns = shape.innerUnknowns + if shape.isUnknown then 1 else 0 :=
  List.countP_cons

/-- What is exposed inside a shape is exposed in it. -/
theorem innerUnknowns_le (shape : Shape) : shape.innerUnknowns ≤ shape.exposedUnknowns := by
  rw [exposedUnknowns_eq]
  exact Nat.le_add_right ..

/-- What is exposed in one of several shapes is the shape itself or inside it. -/
theorem sum_exposedUnknowns (shapes : List Shape) :
    (shapes.map exposedUnknowns).sum =
      shapes.countP isUnknown + (shapes.map innerUnknowns).sum := by
  induction shapes with
  | nil => rfl
  | cons shape shapes ih =>
      simp only [List.map_cons, List.sum_cons, List.countP_cons, ih, exposedUnknowns_eq]
      omega

/-- All children of a known shape are exposed unless it is an array or an object. -/
theorem exposedUnknowns_of_exposed {shape : Shape} (known : shape.isUnknown = false)
    (all : shape.exposed = shape.children) :
    shape.exposedUnknowns = (shape.children.map exposedUnknowns).sum := by
  rw [exposedUnknowns_eq, innerUnknowns_eq, known, all, sum_exposedUnknowns]
  rfl

/-! ## One equation for each kind of shape -/

@[simp] theorem unknowns_unknown : unknown.unknowns = 1 := rfl

@[simp] theorem exposedUnknowns_unknown : unknown.exposedUnknowns = 1 := rfl

@[simp] theorem innerUnknowns_unknown : unknown.innerUnknowns = 0 := rfl

/-- An array is never unknown itself, whatever its items are. -/
@[simp] theorem unknowns_array (items : Shape) : (array items).unknowns = items.unknowns := by
  simp [unknowns_eq (array items), children, isUnknown]

/-- The items of an array are not exposed. What is exposed inside them is. -/
@[simp] theorem exposedUnknowns_array (items : Shape) :
    (array items).exposedUnknowns = items.innerUnknowns := by
  simp [exposedUnknowns_eq, innerUnknowns_eq (array items), children, exposed, isUnknown]

/-- Unknown nodes of an object are in its properties or in its further members. -/
@[simp] theorem unknowns_object (properties : List (String × Shape)) (required : List String)
    (extra : Extra Shape) :
    (object properties required extra).unknowns =
      ((properties.map (·.2)).map unknowns).sum + (extra.allowed?.toList.map unknowns).sum := by
  rw [unknowns_eq, children, List.map_append, List.sum_append]
  rfl

/-- The properties of an object are exposed, its further members are not. -/
@[simp] theorem exposedUnknowns_object (properties : List (String × Shape))
    (required : List String) (extra : Extra Shape) :
    (object properties required extra).exposedUnknowns =
      ((properties.map (·.2)).map exposedUnknowns).sum +
        (extra.allowed?.toList.map innerUnknowns).sum := by
  rw [exposedUnknowns_eq, innerUnknowns_eq, exposed, children, sum_exposedUnknowns,
    List.map_append, List.sum_append, ← Nat.add_assoc]
  rfl

/-- A union adds no unknown node to those of its variants. -/
@[simp] theorem unknowns_union (variants : List Shape) :
    (union variants).unknowns = (variants.map unknowns).sum :=
  unknowns_eq (union variants)

/-- Every variant of a union is exposed. -/
@[simp] theorem exposedUnknowns_union (variants : List Shape) :
    (union variants).exposedUnknowns = (variants.map exposedUnknowns).sum :=
  exposedUnknowns_of_exposed rfl rfl

@[simp] theorem unknowns_intersection (parts : List Shape) :
    (intersection parts).unknowns = (parts.map unknowns).sum :=
  unknowns_eq (intersection parts)

@[simp] theorem exposedUnknowns_intersection (parts : List Shape) :
    (intersection parts).exposedUnknowns = (parts.map exposedUnknowns).sum :=
  exposedUnknowns_of_exposed rfl rfl

@[simp] theorem unknowns_nullable (inner : Shape) :
    (nullable inner).unknowns = inner.unknowns :=
  unknowns_eq (nullable inner)

@[simp] theorem exposedUnknowns_nullable (inner : Shape) :
    (nullable inner).exposedUnknowns = inner.exposedUnknowns :=
  exposedUnknowns_of_exposed rfl rfl

/-! ## Null changes no number -/

/-- Admitting null adds no unknown node and takes none away. -/
@[simp] theorem unknowns_orNull (shape : Shape) : shape.orNull.unknowns = shape.unknowns := by
  unfold orNull
  split
  · rfl
  · rfl
  · exact unknowns_nullable shape

/-- Admitting null exposes nothing else. -/
@[simp] theorem exposedUnknowns_orNull (shape : Shape) :
    shape.orNull.exposedUnknowns = shape.exposedUnknowns := by
  unfold orNull
  split
  · rfl
  · rfl
  · exact exposedUnknowns_nullable shape

end ClientGen.Shape
