import ClientGen.Api.Shape
import ClientGen.Proofs.Naming.Runs

/-!
# The nodes of a shape

A statement about every place inside a shape is a statement about its nodes: the shape itself and
the nodes of the shapes directly inside it.

* `Extra.Rel` — a relation of shapes, carried over to what is said about further members.
* `Shape.children` — the shapes directly inside a shape.
* `Shape.nodes` — the shape and everything inside it.
* `Shape.nodes_eq` — the one equation of the nodes.
* `Shape.children_induction` — what passes from the children to the shape holds of every shape.
* `Shape.forall_nodes_iff` — what holds of every node holds of the shape and below its children.
* `Shape.iff_exists_node` — what is true of a shape by itself or by a child is true by some node.
* `Shape.mem_references` — a name is among the references iff a node refers to it.
-/

namespace ClientGen

/-- What is said about further members is related: the same is said, with related shapes. -/
inductive Extra.Rel {σ : Type} (R : σ → σ → Prop) : Extra σ → Extra σ → Prop
  /-- Nothing is said. -/
  | unstated : Rel R .unstated .unstated
  /-- There are none. -/
  | forbidden : Rel R .forbidden .forbidden
  /-- The shapes of their values are related. -/
  | allowed {values others : σ} (related : R values others) :
      Rel R (.allowed values) (.allowed others)

namespace Shape

/-- The shape of null alone is one literal. -/
theorem isNull_iff {shape : Shape} : shape.isNull ↔ shape = .null := by
  unfold isNull
  split
  · exact iff_of_true rfl rfl
  · rename_i other
    exact iff_of_false Bool.false_ne_true other

/-- **The shapes directly inside a shape.** -/
def children : Shape → List Shape
  | .primitive _ => []
  | .literal _ => []
  | .enumeration _ => []
  | .array items => [items]
  | .object properties _ extra => properties.map (·.2) ++ extra.allowed?.toList
  | .union variants => variants
  | .intersection parts => parts
  | .ref _ => []
  | .nullable inner => [inner]
  | .binary => []
  | .unknown => []

mutual

/-- **The nodes of a shape**: the shape and everything inside it. -/
def nodes : Shape → List Shape
  | .primitive type => [.primitive type]
  | .literal value => [.literal value]
  | .enumeration values => [.enumeration values]
  | .array items => .array items :: nodes items
  | .object properties required extra =>
    .object properties required extra :: (nodesOfProperties properties ++ nodesOfExtra extra)
  | .union variants => .union variants :: nodesOfAll variants
  | .intersection parts => .intersection parts :: nodesOfAll parts
  | .ref name => [.ref name]
  | .nullable inner => .nullable inner :: nodes inner
  | .binary => [.binary]
  | .unknown => [.unknown]

/-- The nodes of several shapes. -/
def nodesOfAll : List Shape → List Shape
  | [] => []
  | shape :: shapes => nodes shape ++ nodesOfAll shapes

/-- The nodes of properties. -/
def nodesOfProperties : List (String × Shape) → List Shape
  | [] => []
  | (_, shape) :: properties => nodes shape ++ nodesOfProperties properties

/-- The nodes of what is said about further members. -/
def nodesOfExtra : Extra Shape → List Shape
  | .unstated => []
  | .forbidden => []
  | .allowed values => nodes values

end

theorem nodesOfAll_eq (shapes : List Shape) : nodesOfAll shapes = shapes.flatMap nodes := by
  induction shapes with
  | nil => rfl
  | cons shape shapes ih => rw [nodesOfAll, ih, List.flatMap_cons]

theorem nodesOfProperties_eq (properties : List (String × Shape)) :
    nodesOfProperties properties = (properties.map (·.2)).flatMap nodes := by
  induction properties with
  | nil => rfl
  | cons property properties ih =>
      rw [nodesOfProperties, ih, List.map_cons, List.flatMap_cons]

theorem nodesOfExtra_eq (extra : Extra Shape) :
    nodesOfExtra extra = extra.allowed?.toList.flatMap nodes := by
  cases extra <;> simp [nodesOfExtra, Extra.allowed?]

/-- **The nodes of a shape are the shape and the nodes of its children.** -/
theorem nodes_eq (shape : Shape) : shape.nodes = shape :: shape.children.flatMap nodes := by
  cases shape with
  | array items => simp [nodes, children]
  | object properties required extra =>
      simp only [nodes, children, nodesOfProperties_eq, nodesOfExtra_eq, List.flatMap_append]
  | union variants => rw [nodes, nodesOfAll_eq, children]
  | intersection parts => rw [nodes, nodesOfAll_eq, children]
  | nullable inner => simp [nodes, children]
  | primitive type => rfl
  | literal value => rfl
  | enumeration values => rfl
  | ref name => rfl
  | binary => rfl
  | unknown => rfl

theorem self_mem_nodes (shape : Shape) : shape ∈ shape.nodes := by
  rw [nodes_eq]
  exact List.mem_cons_self ..

theorem sizeOf_lt_of_mem_children {shape child : Shape} (member : child ∈ shape.children) :
    sizeOf child < sizeOf shape := by
  cases shape with
  | array items =>
      obtain rfl : child = items := List.mem_singleton.mp member
      simp
  | object properties required extra =>
      rcases List.mem_append.mp member with listed | further
      · obtain ⟨⟨name, child⟩, present, rfl⟩ := List.mem_map.mp listed
        have := List.sizeOf_lt_of_mem present
        simp only [Prod.mk.sizeOf_spec, object.sizeOf_spec] at this ⊢
        omega
      · cases extra with
        | unstated => cases further
        | forbidden => cases further
        | allowed values =>
            obtain rfl : child = values := by simpa [Extra.allowed?] using further
            simp only [object.sizeOf_spec, Extra.allowed.sizeOf_spec]
            omega
  | union variants =>
      have := List.sizeOf_lt_of_mem (show child ∈ variants from member)
      simp only [union.sizeOf_spec]
      omega
  | intersection parts =>
      have := List.sizeOf_lt_of_mem (show child ∈ parts from member)
      simp only [intersection.sizeOf_spec]
      omega
  | nullable inner =>
      obtain rfl : child = inner := List.mem_singleton.mp member
      simp
  | primitive type => cases member
  | literal value => cases member
  | enumeration values => cases member
  | ref name => cases member
  | binary => cases member
  | unknown => cases member

/-- **Induction along children.** What holds of a shape as soon as it holds of the shapes directly
inside holds of every shape. -/
theorem children_induction {P : Shape → Prop}
    (step : ∀ shape : Shape, (∀ child ∈ shape.children, P child) → P shape) (shape : Shape) :
    P shape := by
  induction size : sizeOf shape using Nat.strongRecOn generalizing shape with
  | ind n smaller =>
      refine step shape fun child member => smaller (sizeOf child) ?_ child rfl
      exact size ▸ sizeOf_lt_of_mem_children member

/-- **What holds of every node** holds of the shape itself and of the nodes of its children. -/
theorem forall_nodes_iff {own : Shape → Prop} {shape : Shape} :
    (∀ node ∈ shape.nodes, own node) ↔
      own shape ∧ ∀ child ∈ shape.children, ∀ node ∈ child.nodes, own node := by
  rw [nodes_eq shape, List.forall_mem_cons]
  refine and_congr_right fun _ => ?_
  simp only [List.mem_flatMap]
  exact ⟨fun each child member node inside => each node ⟨child, member, inside⟩,
    fun each node ⟨child, member, inside⟩ => each child member node inside⟩

/-- **What is found at some node.** A property that a shape has by itself or by a child is one that
some node has by itself. -/
theorem iff_exists_node {P own : Shape → Prop}
    (step : ∀ shape, P shape ↔ own shape ∨ ∃ child ∈ shape.children, P child) (shape : Shape) :
    P shape ↔ ∃ node ∈ shape.nodes, own node := by
  induction shape using children_induction with
  | step shape ih =>
      simp only [step shape, nodes_eq shape, List.mem_cons, exists_eq_or_imp, List.mem_flatMap]
      refine or_congr_right ?_
      constructor
      · rintro ⟨child, member, found⟩
        obtain ⟨node, inside, here⟩ := (ih child member).mp found
        exact ⟨node, ⟨child, member, inside⟩, here⟩
      · rintro ⟨node, ⟨child, member, inside⟩, here⟩
        exact ⟨child, member, (ih child member).mpr ⟨node, inside, here⟩⟩

/-! ## The references of a shape -/

/-- The references of an object are those of its children. -/
theorem fold_collectReferences_object (properties : OrderedMap Shape) (required : List String)
    (extra : Extra Shape) :
    (object properties required extra).fold collectReferences =
      (object properties required extra).children.flatMap (fold collectReferences) := by
  have listed : (foldProperties collectReferences properties).flatMap (·.2) =
      (properties.map (·.2)).flatMap (fold collectReferences) := by
    rw [foldProperties_eq_mapValues, OrderedMap.mapValues, List.flatMap_map, List.flatMap_map]
  have further : (foldExtra collectReferences extra).allowed?.getD [] =
      extra.allowed?.toList.flatMap (fold collectReferences) := by
    cases extra <;> simp [foldExtra, Extra.allowed?]
  rw [children, List.flatMap_append, ← listed, ← further]
  rfl

/-- References come from the shape itself or from its children. -/
theorem mem_collectReferences {name : String} (shape : Shape) :
    name ∈ shape.fold collectReferences ↔
      shape = .ref name ∨ ∃ child ∈ shape.children, name ∈ child.fold collectReferences := by
  have inside (shapes : List Shape) : (∃ child ∈ shapes, name ∈ child.fold collectReferences) ↔
      name ∈ shapes.flatMap (fold collectReferences) := List.mem_flatMap.symm
  cases shape with
  | object properties required extra =>
      rw [fold_collectReferences_object, inside]
      simp
  | union variants =>
      rw [inside, fold, foldAll_eq_map]
      simp [collectReferences, children, List.flatMap]
  | intersection parts =>
      rw [inside, fold, foldAll_eq_map]
      simp [collectReferences, children, List.flatMap]
  | ref other => simp [fold, collectReferences, children, eq_comm]
  | array items => simp [fold, collectReferences, children]
  | nullable inner => simp [fold, collectReferences, children]
  | primitive type => simp [fold, collectReferences, children]
  | literal value => simp [fold, collectReferences, children]
  | enumeration values => simp [fold, collectReferences, children]
  | binary => simp [fold, collectReferences, children]
  | unknown => simp [fold, collectReferences, children]

/-- **The references of a shape are the names of its reference nodes.** -/
theorem mem_references {shape : Shape} {name : String} :
    name ∈ shape.references ↔ .ref name ∈ shape.nodes := by
  rw [references, Naming.mem_ascending, iff_exists_node mem_collectReferences shape]
  exact exists_eq_right

/-- A reference refers to its name. -/
theorem mem_references_ref (name : String) : name ∈ (ref name).references :=
  mem_references.mpr (self_mem_nodes _)

/-- The references of a child are references of the shape. -/
theorem mem_references_of_mem_children {shape child : Shape} (member : child ∈ shape.children)
    {name : String} (mentioned : name ∈ child.references) : name ∈ shape.references := by
  rw [mem_references, nodes_eq]
  exact List.mem_cons_of_mem _ (List.mem_flatMap.mpr ⟨child, member, mem_references.mp mentioned⟩)

end Shape

end ClientGen
