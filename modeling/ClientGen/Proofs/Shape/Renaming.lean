import ClientGen.Proofs.OrderedMap.Agreement
import ClientGen.Proofs.Shape.Nodes

/-!
# Other names for models inside a shape

Other names for models are put in for the old ones at every reference, all at once: a new name is
not looked up again, even if it is an old one of another model. Everything else about the shape
stays.

* `Shape.Substituted` — the same shape with other names at its references.
* `Shape.substituted_iff` — `Shape.rename` makes it, and nothing else does.
* `Shape.mentions` — the names at the references of a shape, each place once.
* `Shape.mentions_rename`, `Shape.references_rename` — they are replaced place by place.
-/

namespace ClientGen.Shape

/-! ## Substitution -/

/-- **The same shape with other names** at its references. -/
inductive Substituted (f : String → String) : Shape → Shape → Prop
  /-- A scalar. -/
  | primitive (type : Primitive) : Substituted f (.primitive type) (.primitive type)
  /-- One value. -/
  | literal (value : Json) : Substituted f (.literal value) (.literal value)
  /-- Several values. -/
  | enumeration (values : List Json) : Substituted f (.enumeration values) (.enumeration values)
  /-- The names change in the items. -/
  | array {items others : Shape} (inside : Substituted f items others) :
      Substituted f (.array items) (.array others)
  /-- The names change in the properties, each in its place, and in what is said about others. -/
  | object {properties others : OrderedMap Shape} {required : List String}
      {extra further : Extra Shape} (inside : OrderedMap.Aligned (Substituted f) properties others)
      (same : Extra.Rel (Substituted f) extra further) :
      Substituted f (.object properties required extra) (.object others required further)
  /-- The names change in the variants. -/
  | union {variants others : List Shape}
      (inside : List.Forall₂ (Substituted f) variants others) :
      Substituted f (.union variants) (.union others)
  /-- The names change in the parts. -/
  | intersection {parts others : List Shape}
      (inside : List.Forall₂ (Substituted f) parts others) :
      Substituted f (.intersection parts) (.intersection others)
  /-- A name is replaced once. -/
  | ref (name : String) : Substituted f (.ref name) (.ref (f name))
  /-- The names change in what is not null. -/
  | nullable {inner other : Shape} (inside : Substituted f inner other) :
      Substituted f (.nullable inner) (.nullable other)
  /-- Raw bytes. -/
  | binary : Substituted f .binary .binary
  /-- Any value. -/
  | unknown : Substituted f .unknown .unknown

/-! ## The equations of renaming -/

variable (newNames : List (String × String))

theorem rename_union (variants : List Shape) :
    (union variants).rename newNames = .union (variants.map (rename newNames)) := by
  show Shape.union (foldAll _ variants) = _
  rw [foldAll_eq_map]
  rfl

theorem rename_intersection (parts : List Shape) :
    (intersection parts).rename newNames = .intersection (parts.map (rename newNames)) := by
  show Shape.intersection (foldAll _ parts) = _
  rw [foldAll_eq_map]
  rfl

theorem rename_object (properties : OrderedMap Shape) (required : List String)
    (extra : Extra Shape) :
    (object properties required extra).rename newNames =
      .object (properties.mapValues (rename newNames)) required (extra.map (rename newNames)) := by
  show Shape.object (foldProperties _ properties) _ (foldExtra _ extra) = _
  rw [foldProperties_eq_mapValues, foldExtra_eq_map]
  rfl

variable {newNames}

/-- **Renaming substitutes** the new names. -/
theorem substituted_rename (shape : Shape) :
    shape.Substituted (renamed newNames) (shape.rename newNames) := by
  induction shape using children_induction with
  | step shape ih =>
      cases shape with
      | primitive type => exact .primitive type
      | literal value => exact .literal value
      | enumeration values => exact .enumeration values
      | ref name => exact .ref name
      | binary => exact .binary
      | unknown => exact .unknown
      | array items => exact .array (ih items (List.mem_singleton_self _))
      | nullable inner => exact .nullable (ih inner (List.mem_singleton_self _))
      | union variants =>
          rw [rename_union]
          exact .union (List.forall₂_map_right_iff.mpr (List.forall₂_same.mpr ih))
      | intersection parts =>
          rw [rename_intersection]
          exact .intersection (List.forall₂_map_right_iff.mpr (List.forall₂_same.mpr ih))
      | object properties required extra =>
          rw [rename_object]
          refine .object (OrderedMap.aligned_mapValues fun entry listed => ih entry.2 ?_) ?_
          · exact List.mem_append_left _ (List.mem_map_of_mem listed)
          · cases extra with
            | unstated => exact .unstated
            | forbidden => exact .forbidden
            | allowed values =>
                exact .allowed (ih values (List.mem_append_right _ (List.mem_singleton_self _)))

/-- What is substituted for the old names is determined. -/
theorem Substituted.eq_rename {shape other : Shape}
    (substituted : shape.Substituted (renamed newNames) other) : other = shape.rename newNames := by
  induction shape using children_induction generalizing other with
  | step shape ih =>
      cases substituted with
      | primitive type => rfl
      | literal value => rfl
      | enumeration values => rfl
      | ref name => rfl
      | binary => rfl
      | unknown => rfl
      | array inside => exact congrArg Shape.array (ih _ (List.mem_singleton_self _) inside)
      | nullable inside => exact congrArg Shape.nullable (ih _ (List.mem_singleton_self _) inside)
      | union inside =>
          rw [rename_union, inside.map_eq (g := id) fun child listed _ related =>
            (ih child listed related).symm, List.map_id]
      | intersection inside =>
          rw [rename_intersection, inside.map_eq (g := id) fun child listed _ related =>
            (ih child listed related).symm, List.map_id]
      | @object properties others required extra further inside same =>
          have entries : properties.mapValues (rename newNames) = others := by
            have images := inside.mapValues_eq (f := rename newNames) (g := id)
              fun entry listed _ related =>
                (ih entry.2 (List.mem_append_left _ (List.mem_map_of_mem listed)) related).symm
            rwa [OrderedMap.mapValues_id] at images
          have rest : extra.map (rename newNames) = further := by
            cases same with
            | unstated => rfl
            | forbidden => rfl
            | allowed related =>
                have inside := ih _ (List.mem_append_right _ (List.mem_singleton_self _)) related
                exact congrArg Extra.allowed inside.symm
          rw [rename_object, entries, rest]

/-- **Renaming puts in the new names and does nothing else.** -/
theorem substituted_iff {shape other : Shape} :
    shape.Substituted (renamed newNames) other ↔ other = shape.rename newNames := by
  constructor
  · exact Substituted.eq_rename
  · rintro rfl
    exact substituted_rename shape

/-! ## Mentioned names -/

/-- The name at a reference. -/
def refName? : Shape → Option String
  | .ref name => some name
  | _ => none

/-- **The names at the references of a shape**, place by place. -/
def mentions (shape : Shape) : List String :=
  shape.nodes.filterMap refName?

theorem refName?_eq_some {shape : Shape} {name : String} :
    shape.refName? = some name ↔ shape = .ref name := by
  cases shape <;> simp [refName?]

theorem mem_mentions {shape : Shape} {name : String} :
    name ∈ shape.mentions ↔ name ∈ shape.references := by
  rw [mentions, List.mem_filterMap, mem_references]
  simp only [refName?_eq_some, exists_eq_right]

theorem children_rename (shape : Shape) :
    (shape.rename newNames).children = shape.children.map (rename newNames) := by
  cases shape with
  | union variants => rw [rename_union]; rfl
  | intersection parts => rw [rename_intersection]; rfl
  | object properties required extra =>
      rw [rename_object]
      simp only [children, List.map_append, OrderedMap.mapValues, List.map_map]
      cases extra <;> rfl
  | _ => rfl

/-- The nodes of a renamed shape are its nodes, renamed. -/
theorem nodes_rename (shape : Shape) :
    (shape.rename newNames).nodes = shape.nodes.map (rename newNames) := by
  induction shape using children_induction with
  | step shape ih =>
      rw [nodes_eq, nodes_eq shape, children_rename, List.flatMap_map, List.map_cons,
        List.map_flatMap]
      exact congrArg _ (List.flatMap_congr ih)

theorem refName?_rename (shape : Shape) :
    (shape.rename newNames).refName? = shape.refName?.map (renamed newNames) := by
  cases shape with
  | union variants => rw [rename_union]; rfl
  | intersection parts => rw [rename_intersection]; rfl
  | object properties required extra => rw [rename_object]; rfl
  | _ => rfl

/-- **Each mentioned name is replaced in its place.** -/
theorem mentions_rename (shape : Shape) :
    (shape.rename newNames).mentions = shape.mentions.map (renamed newNames) := by
  rw [mentions, nodes_rename, List.filterMap_map, mentions, List.map_filterMap]
  refine List.filterMap_congr fun node _ => ?_
  exact refName?_rename node

/-- **The references of a renamed shape** are the new names of its references. -/
theorem references_rename (shape : Shape) :
    (shape.rename newNames).references =
      Naming.ascending (shape.references.map (renamed newNames)) := by
  have ascends : (shape.rename newNames).references =
      Naming.ascending (shape.rename newNames).references := by
    rw [references, Naming.ascending_eq_iff]
    exact fun name => Naming.mem_ascending.symm
  rw [ascends, Naming.ascending_eq_iff]
  intro name
  rw [← mem_mentions, mentions_rename, List.mem_map, List.mem_map]
  simp only [mem_mentions]

end ClientGen.Shape
