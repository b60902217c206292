import ClientGen.Proofs.Api.RoundTrip
import ClientGen.Proofs.Json.Lexemes
import ClientGen.Proofs.Shape.Sorted

/-!
# Depths of descriptions

A shape is written as an object for each node, with an array or an object around what it lists. So
the depth of its text is found along the shape.

* `Shape.Fits` — a shape that is written no deeper than a bound, with canonical values.
* `Shape.Fits.sorted` — the order inside a shape does not matter.
* `Shape.Fits.orNull`, `Schema.fits_unionOf` — how much deeper a shape becomes with null.
* `Api.depth_toJson_le` — how deep a description is written.
-/

namespace ClientGen

open Json (depth itemsDepth membersDepth itemsDepth_le_iff membersDepth_le_iff depth_bool
  depth_number depth_string)

namespace Shape

/-! ## Shapes -/

/-- **A shape that is written no deeper than a bound**, with canonical values. -/
inductive Fits : Nat → Shape → Prop
  /-- A scalar. -/
  | primitive {d : Nat} (type : Primitive) : Fits (d + 1) (.primitive type)
  /-- The value stands in the object of the shape. -/
  | literal {d : Nat} {value : Json} (canonical : value.Canonical) (shallow : value.depth ≤ d) :
      Fits (d + 1) (.literal value)
  /-- The values stand in an array. -/
  | enumeration {d : Nat} {values : List Json} (canonical : ∀ value ∈ values, value.Canonical)
      (shallow : ∀ value ∈ values, value.depth ≤ d) : Fits (d + 2) (.enumeration values)
  /-- The items stand in the object of the shape. -/
  | array {d : Nat} {items : Shape} (inside : Fits d items) : Fits (d + 1) (.array items)
  /-- The properties stand in an object, and further members beside it. -/
  | object {d : Nat} {properties : OrderedMap Shape} {required : List String} {extra : Extra Shape}
      (listed : ∀ property ∈ properties, Fits d property.2)
      (further : ∀ values ∈ extra.allowed?, Fits (d + 1) values) :
      Fits (d + 2) (.object properties required extra)
  /-- The variants stand in an array. -/
  | union {d : Nat} {variants : List Shape} (inside : ∀ variant ∈ variants, Fits d variant) :
      Fits (d + 2) (.union variants)
  /-- The parts stand in an array. -/
  | intersection {d : Nat} {parts : List Shape} (inside : ∀ part ∈ parts, Fits d part) :
      Fits (d + 2) (.intersection parts)
  /-- A reference. -/
  | ref {d : Nat} (name : String) : Fits (d + 1) (.ref name)
  /-- What is not null stands in the object of the shape. -/
  | nullable {d : Nat} {inner : Shape} (inside : Fits d inner) : Fits (d + 1) (.nullable inner)
  /-- Raw bytes. -/
  | binary {d : Nat} : Fits (d + 1) .binary
  /-- Any value. -/
  | unknown {d : Nat} : Fits (d + 1) .unknown

variable {d : Nat} {shape : Shape}

theorem Fits.succ (fits : shape.Fits d) : shape.Fits (d + 1) := by
  induction fits with
  | primitive type => exact .primitive type
  | literal canonical shallow => exact .literal canonical (shallow.trans (Nat.le_succ _))
  | enumeration canonical shallow =>
      exact .enumeration canonical fun value listed => (shallow value listed).trans (Nat.le_succ _)
  | array inside ih => exact .array ih
  | object listed further ihListed ihFurther => exact .object ihListed ihFurther
  | union inside ih => exact .union ih
  | intersection inside ih => exact .intersection ih
  | ref name => exact .ref name
  | nullable inside ih => exact .nullable ih
  | binary => exact .binary
  | unknown => exact .unknown

/-- A larger bound will do as well. -/
theorem Fits.mono (fits : shape.Fits d) {e : Nat} (le : d ≤ e) : shape.Fits e := by
  induction le with
  | refl => exact fits
  | step le ih => exact ih.succ

/-- The bound holds of the value that is written. -/
theorem Fits.depth_toJson_le (fits : shape.Fits d) : shape.toJson.depth ≤ d := by
  have written {shape : Shape} {d : Nat} (members : membersDepth shape.members ≤ d) :
      shape.toJson.depth ≤ d + 1 := by
    rw [toJson_eq, tagged, depth, membersDepth, depth]
    omega
  have one {name : String} {v : Json} {d : Nat} (value : v.depth ≤ d) :
      membersDepth [(name, v)] ≤ d :=
    membersDepth_le_iff.mpr (List.forall_mem_singleton.mpr value)
  induction fits with
  | primitive type => exact written (one (Nat.zero_le _))
  | literal canonical shallow => exact written (one shallow)
  | enumeration canonical shallow =>
      exact written (one (Nat.succ_le_succ (itemsDepth_le_iff.mpr shallow)))
  | array inside ih => exact written (one ih)
  | @object d properties required extra listed further ihListed ihFurther =>
      refine written (membersDepth_le_iff.mpr ?_)
      refine List.forall_mem_cons.mpr ⟨?_, List.forall_mem_cons.mpr ⟨?_, ?_⟩⟩
      · refine Nat.succ_le_succ (membersDepth_le_iff.mpr fun m member => ?_)
        obtain ⟨property, present, rfl⟩ := List.mem_map.mp member
        exact ihListed property present
      · refine Nat.succ_le_succ (itemsDepth_le_iff.mpr fun v member => ?_)
        obtain ⟨name, -, rfl⟩ := List.mem_map.mp member
        exact Nat.zero_le _
      · cases extra with
        | unstated => exact List.forall_mem_nil _
        | forbidden => exact List.forall_mem_singleton.mpr (Nat.zero_le _)
        | allowed values => exact List.forall_mem_singleton.mpr (ihFurther values rfl)
  | union inside ih =>
      exact written (one (Nat.succ_le_succ (itemsDepth_le_iff.mpr (List.forall_mem_map.mpr ih))))
  | intersection inside ih =>
      exact written (one (Nat.succ_le_succ (itemsDepth_le_iff.mpr (List.forall_mem_map.mpr ih))))
  | ref name => exact written (one (Nat.zero_le _))
  | nullable inside ih => exact written (one ih)
  | binary => exact written (Nat.zero_le _)
  | unknown => exact written (Nat.zero_le _)

/-- **The order inside a shape does not matter.** -/
theorem Fits.sorted (fits : shape.Fits d) : shape.sorted.Fits d := by
  induction fits with
  | primitive type => exact .primitive type
  | literal canonical shallow => exact .literal canonical shallow
  | enumeration canonical shallow => exact .enumeration canonical shallow
  | array inside ih => exact .array ih
  | @object d properties required extra listed further ihListed ihFurther =>
      rw [sorted_object]
      refine .object (fun property member => ?_) fun values said => ?_
      · have image := (OrderedMap.sorted_perm _).mem_iff.mp member
        obtain ⟨given, present, rfl⟩ := List.mem_map.mp image
        exact ihListed given present
      · cases extra with
        | unstated => cases said
        | forbidden => cases said
        | allowed inner =>
            obtain rfl := Option.some.inj said
            exact ihFurther inner rfl
  | union inside ih =>
      rw [sorted_union]
      exact .union (List.forall_mem_map.mpr ih)
  | intersection inside ih =>
      rw [sorted_intersection]
      exact .intersection (List.forall_mem_map.mpr ih)
  | ref name => exact .ref name
  | nullable inside ih => exact .nullable ih
  | binary => exact .binary
  | unknown => exact .unknown

/-- Null may add one object around the shape. -/
theorem Fits.orNull (fits : shape.Fits d) : shape.orNull.Fits (d + 1) := by
  unfold Shape.orNull
  split
  · exact fits.succ
  · exact fits.succ
  · exact .nullable fits

theorem fits_null : Fits (d + 1) .null :=
  .literal ⟨rfl, List.forall_mem_nil _⟩ (Nat.zero_le _)

/-! ## Values of shapes -/

/-- The shapes inside a shape that fits. -/
theorem Fits.of_mem_children (fits : shape.Fits d) :
    ∀ child ∈ shape.children, child.Fits d := by
  cases fits with
  | array inside => exact List.forall_mem_singleton.mpr inside.succ
  | @object d properties required extra listed further =>
      refine List.forall_mem_append.mpr ⟨List.forall_mem_map.mpr ?_, ?_⟩
      · exact fun property member => (listed property member).succ.succ
      · exact fun values said => (further values (Option.mem_toList.mp said)).succ
  | union inside => exact fun variant member => (inside variant member).succ.succ
  | intersection inside => exact fun part member => (inside part member).succ.succ
  | nullable inside => exact List.forall_mem_singleton.mpr inside.succ
  | _ => exact List.forall_mem_nil _

/-- **The numbers of a shape that fits can be read**, because they are numbers of the format. -/
theorem Fits.readable (fits : shape.Fits d) : shape.Each Json.Number.Readable := by
  have numbers {value : Json} (canonical : value.Canonical) : value.Each Json.Number.Readable :=
    fun n member => Json.Number.readable_of_canonical (canonical.numbers n member)
  induction shape using children_induction with
  | step shape ih =>
      refine each_iff.mpr ⟨?_, fun child member =>
        ih child member (fits.of_mem_children child member)⟩
      cases fits with
      | literal canonical shallow => exact numbers canonical
      | enumeration canonical shallow => exact fun value listed => numbers (canonical value listed)
      | _ => trivial

/-- **Nothing stands twice in a shape that fits** if its names ascend. -/
theorem Fits.orderly (fits : shape.Fits d) (ascending : shape.Canonical) : shape.Orderly := by
  induction shape using children_induction with
  | step shape ih =>
      obtain ⟨own, inside⟩ := canonical_iff.mp ascending
      refine orderly_iff.mpr ⟨?_, fun child member =>
        ih child member (fits.of_mem_children child member) (inside child member)⟩
      cases fits with
      | literal canonical shallow => exact canonical.own
      | enumeration canonical shallow => exact fun value listed => (canonical value listed).own
      | object listed further => exact own.1.imp fun less => String.ne_of_lt less
      | _ => trivial

end Shape

/-- A union of members of one bound. -/
theorem Schema.fits_unionOf {d : Nat} {shapes : List Shape}
    (each : ∀ shape ∈ shapes, shape.Fits d) : (unionOf shapes).Fits (d + 3) := by
  have kept : ∀ shape ∈ shapes.filter (!·.isNull), shape.Fits d :=
    fun shape member => each shape (List.mem_of_mem_filter member)
  simp only [unionOf]
  split
  · exact (Shape.Fits.union each).succ
  · split
    · exact Shape.fits_null
    · rename_i only alone
      exact (kept only (by simp [alone])).orNull.mono (by omega)
    · exact (Shape.Fits.union kept).orNull

/-! ## Descriptions -/

section

variable {d : Nat}

theorem membersDepth_append_le_iff {ms ns : List (String × Json)} :
    membersDepth (ms ++ ns) ≤ d ↔ membersDepth ms ≤ d ∧ membersDepth ns ≤ d := by
  simp only [membersDepth_le_iff, List.forall_mem_append]

/-- A member that may be left out. -/
theorem membersDepth_memberOf_le {α : Type} {name : String} {write : α → Json} {a : Option α}
    (each : ∀ x ∈ a, (write x).depth ≤ d) : membersDepth (memberOf name write a) ≤ d := by
  cases a with
  | none => exact Nat.zero_le _
  | some x => exact membersDepth_le_iff.mpr (List.forall_mem_singleton.mpr (each x rfl))

theorem membersDepth_textMember_le (name : String) (text : Option String) :
    membersDepth (memberOf name .string text) ≤ d :=
  membersDepth_memberOf_le fun _ _ => Nat.zero_le _

theorem depth_array_map_le {α : Type} {write : α → Json} {as : List α}
    (each : ∀ a ∈ as, (write a).depth ≤ d) : (Json.array (as.map write)).depth ≤ d + 1 :=
  Nat.succ_le_succ (itemsDepth_le_iff.mpr (List.forall_mem_map.mpr each))

theorem Parameter.depth_toJson_le {p : Parameter} (shape : p.shape.toJson.depth ≤ d) :
    p.toJson.depth ≤ d + 1 := by
  refine Nat.succ_le_succ (membersDepth_append_le_iff.mpr ⟨?_, membersDepth_textMember_le ..⟩)
  simp only [membersDepth, depth_string, depth_bool, Nat.max_le, shape, Nat.zero_le, and_self]

theorem Body.depth_toJson_le {b : Body} (shape : b.shape.toJson.depth ≤ d) :
    b.toJson.depth ≤ d + 1 := by
  refine Nat.succ_le_succ (membersDepth_append_le_iff.mpr ⟨?_, membersDepth_textMember_le ..⟩)
  simp only [membersDepth, depth_string, depth_bool, Nat.max_le, shape, Nat.zero_le, and_self]

theorem Response.depth_toJson_le {r : Response}
    (shape : ∀ shape ∈ r.shape, shape.toJson.depth ≤ d) : r.toJson.depth ≤ d + 1 := by
  refine Nat.succ_le_succ ?_
  have said : membersDepth (memberOf "schema" Shape.toJson r.shape) ≤ d :=
    membersDepth_memberOf_le shape
  simp only [membersDepth_append_le_iff, membersDepth_textMember_le, membersDepth,
    depth_string, depth_bool, Nat.max_le, said, Nat.zero_le, and_self]

theorem Operation.depth_toJson_le {op : Operation}
    (shapes : ∀ shape ∈ op.shapes, shape.toJson.depth ≤ d) : op.toJson.depth ≤ d + 3 := by
  refine Nat.succ_le_succ ?_
  have tags : (Json.ofStrings op.tags).depth ≤ d + 2 :=
    (depth_array_map_le fun _ _ => Nat.zero_le _).trans (Nat.le_add_left 1 _)
  have parameters : (Json.array (op.parameters.map Parameter.toJson)).depth ≤ d + 2 :=
    depth_array_map_le fun p member =>
      Parameter.depth_toJson_le (shapes _ (op.shape_mem_of_parameter member))
  have body : membersDepth (memberOf "requestBody" Body.toJson op.body) ≤ d + 2 :=
    membersDepth_memberOf_le fun b declared =>
      (Body.depth_toJson_le (shapes _ (op.shape_mem_of_body declared))).trans (Nat.le_succ _)
  have responses : (Json.array (op.responses.map Response.toJson)).depth ≤ d + 2 :=
    depth_array_map_le fun r member =>
      Response.depth_toJson_le fun shape given =>
        shapes _ (op.shape_mem_of_response member given)
  simp only [membersDepth_append_le_iff, membersDepth_textMember_le, membersDepth,
    depth_string, Nat.max_le, tags, parameters, body, responses, Nat.zero_le, and_self]

theorem Model.depth_toJson_le {m : Model} (shape : m.shape.toJson.depth ≤ d) :
    m.toJson.depth ≤ d + 1 := by
  refine Nat.succ_le_succ ?_
  simp only [membersDepth_append_le_iff, membersDepth_textMember_le, membersDepth,
    depth_string, Nat.max_le, shape, Nat.zero_le, and_self]

/-- **How deep a description is written**: the shapes of operations have five arrays and objects
around them, and those of models have three. -/
theorem Api.depth_toJson_le {api : Api}
    (models : ∀ m ∈ api.models, m.shape.toJson.depth ≤ d + 2)
    (operations : ∀ op ∈ api.operations, ∀ shape ∈ op.shapes, shape.toJson.depth ≤ d) :
    api.toJson.depth ≤ d + 5 := by
  refine Nat.succ_le_succ ?_
  have models : (Json.array (api.models.map Model.toJson)).depth ≤ d + 4 :=
    depth_array_map_le fun m member => Model.depth_toJson_le (models m member)
  have operations : (Json.array (api.operations.map Operation.toJson)).depth ≤ d + 4 :=
    depth_array_map_le fun op member => Operation.depth_toJson_le (operations op member)
  have info : (Json.object [("title", .string api.title), ("version", .string api.version)]).depth
      ≤ d + 4 := Nat.le_add_left 1 _
  simp only [membersDepth, Nat.max_le, Json.ofNat, depth_number, info, models, operations,
    Nat.zero_le, and_self]

/-- A description is written around its models. -/
theorem Api.depth_toJson_of_model {api : Api} {m : Model} (member : m ∈ api.models) :
    m.shape.toJson.depth + 3 ≤ api.toJson.depth := by
  have shape : m.shape.toJson.depth + 1 ≤ m.toJson.depth :=
    Nat.succ_le_succ (membersDepth_le_iff.mp (Nat.le_refl _) ("schema", m.shape.toJson)
      (List.mem_append_left _ (List.mem_append_left _ (by simp))))
  have model : m.toJson.depth + 1 ≤ (Json.array (api.models.map Model.toJson)).depth :=
    Nat.succ_le_succ (itemsDepth_le_iff.mp (Nat.le_refl _) _ (List.mem_map_of_mem member))
  have models : (Json.array (api.models.map Model.toJson)).depth + 1 ≤ api.toJson.depth :=
    Nat.succ_le_succ (membersDepth_le_iff.mp (Nat.le_refl _)
      ("models", .array (api.models.map Model.toJson)) (by simp))
  omega

end

end ClientGen
