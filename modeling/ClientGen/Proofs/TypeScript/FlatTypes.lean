import ClientGen.Proofs.TypeScript.TypeGrammar
import ClientGen.TypeScript.Printer

/-!
# Types up to grouping

A union inside a union, and an intersection inside an intersection, say nothing that the members
side by side would not say, and neither does a union or an intersection of a single type. The flat
form of a type leaves all of them out; two types with one flat form differ in grouping only. The
flat form of a number literal is the floating-point number that it denotes, since `1` is written for
the integer and for the floating-point number.

* `Literal.denoted` — a literal, with the floating-point number that it denotes.
* `TypeExpr.alternatives`, `TypeExpr.components` — the members of a union, of an intersection.
* `TypeExpr.flat` — the flat form of a type.
* `TypeExpr.Tidy` — a type whose members and parts put it together again.
* `TypeExpr.alternatives_flat_union`, `TypeExpr.components_flat_intersection` — the members of the
  flat form.
* `TypeExpr.flat_joined_union`, `TypeExpr.flat_joined_intersection` — the flat form of types read
  one by one.
-/

namespace ClientGen.TypeScript

open Decimal Grammar

/-! ## Literals -/

/-- **The floating-point number that a literal denotes.** -/
def Literal.number? : Literal → Option Binary64
  | .int i => (Binary64.ofNat? false i.natAbs).map (·.withSign (decide (i < 0)))
  | .float x => some x
  | _ => none

/-- A literal, as the number that it denotes if it denotes one. -/
def Literal.denoted (l : Literal) : Literal :=
  match l.number? with
  | some x => .float x
  | none => l

theorem Literal.denoted_of_number? {l : Literal} {x : Binary64} (number : l.number? = some x) :
    l.denoted = .float x := by
  rw [denoted, number]

namespace TypeExpr

/-! ## Members -/

/-- The members of a union; any other type is the only one. -/
def alternatives : TypeExpr → List TypeExpr
  | .union members => members
  | type => [type]

/-- The parts of an intersection; any other type is the only one. -/
def components : TypeExpr → List TypeExpr
  | .intersection parts => parts
  | type => [type]

/-- Whether a type is an intersection. -/
def isIntersection : TypeExpr → Bool
  | .intersection _ => true
  | _ => false

theorem alternatives_of_not_union {type : TypeExpr} (other : type.isUnion = false) :
    type.alternatives = [type] := by
  cases type <;> first | rfl | cases other

theorem components_of_not_intersection {type : TypeExpr} (other : type.isIntersection = false) :
    type.components = [type] := by
  cases type <;> first | rfl | cases other

theorem joined_of_ne {join : List TypeExpr → TypeExpr} {types : List TypeExpr}
    (several : ∀ type, types ≠ [type]) : joined join types = join types := by
  unfold joined
  split
  · exact absurd rfl (several _)
  · rfl

/-! ## The flat form -/

mutual

/-- **The flat form of a type.** -/
def flat : TypeExpr → TypeExpr
  | .primitive type => .primitive type
  | .array items => .array (flat items)
  | .union members => joined .union ((flatAll members).flatMap alternatives)
  | .intersection parts => joined .intersection ((flatAll parts).flatMap components)
  | .object properties index => .object (flatProperties properties) (flatIndex index)
  | .record key value => .record (flat key) (flat value)
  | .literal value => .literal value.denoted
  | .ref name => .ref name

/-- The flat forms of several types. -/
def flatAll : List TypeExpr → List TypeExpr
  | [] => []
  | type :: types => flat type :: flatAll types

/-- Properties with flat types. -/
def flatProperties : List (Property TypeExpr) → List (Property TypeExpr)
  | [] => []
  | ⟨name, type, optional, doc⟩ :: properties =>
    ⟨name, flat type, optional, doc⟩ :: flatProperties properties

/-- The flat form of the type of all further properties. -/
def flatIndex : Option TypeExpr → Option TypeExpr
  | some type => some (flat type)
  | none => none

end

theorem flatAll_eq (types : List TypeExpr) : flatAll types = types.map flat := by
  induction types with
  | nil => rfl
  | cons type types ih => rw [flatAll, ih, List.map_cons]

theorem flatProperties_eq (properties : List (Property TypeExpr)) :
    flatProperties properties = properties.map fun p => { p with type := p.type.flat } := by
  induction properties with
  | nil => rfl
  | cons p properties ih => rw [flatProperties, ih, List.map_cons]

theorem flat_union (members : List TypeExpr) :
    (union members).flat = joined .union (members.flatMap fun type => type.flat.alternatives) := by
  rw [flat, flatAll_eq, List.flatMap_map]

theorem flat_intersection (parts : List TypeExpr) :
    (intersection parts).flat =
      joined .intersection (parts.flatMap fun type => type.flat.components) := by
  rw [flat, flatAll_eq, List.flatMap_map]

/-! ## Tidy types -/

/-- **A tidy type** is put together again from its members, and from its parts; they are no unions,
and no intersections. -/
structure Tidy (type : TypeExpr) : Prop where
  /-- It is made of its members. -/
  union : joined .union type.alternatives = type
  /-- It is made of its parts. -/
  intersection : joined .intersection type.components = type
  /-- Its members are no unions. -/
  members : ∀ member ∈ type.alternatives, member.isUnion = false
  /-- Its parts are no intersections. -/
  parts : ∀ part ∈ type.components, part.isIntersection = false

theorem Tidy.of_plain {type : TypeExpr} (noUnion : type.isUnion = false)
    (noIntersection : type.isIntersection = false) : Tidy type := by
  have members := alternatives_of_not_union noUnion
  have parts := components_of_not_intersection noIntersection
  constructor
  · rw [members, joined]
  · rw [parts, joined]
  · simpa [members] using noUnion
  · simpa [parts] using noIntersection

variable {types : List TypeExpr}

/-- What is put together from several types, and is a single one, is one of them. -/
theorem mem_of_flatMap_eq_singleton {split : TypeExpr → List TypeExpr}
    {join : List TypeExpr → TypeExpr} {type : TypeExpr}
    (own : ∀ t ∈ types, joined join (split t) = t) (single : types.flatMap split = [type]) :
    type ∈ types := by
  have member : type ∈ types.flatMap split := by simp [single]
  obtain ⟨t, listed, inside⟩ := List.mem_flatMap.mp member
  have sublist : (split t).Sublist [type] := by
    rw [← single, List.flatMap_def]
    exact List.sublist_flatten_of_mem (List.mem_map_of_mem listed)
  have only : split t = [type] := by
    rcases List.sublist_singleton.mp sublist with none | only
    · simp [none] at inside
    · exact only
  have same := own t listed
  rw [only, joined] at same
  exact same ▸ listed

variable (tidy : ∀ type ∈ types, Tidy type)
include tidy

/-- The members of several tidy types are a tidy union. -/
theorem tidy_joined_union : Tidy (joined .union (types.flatMap alternatives)) := by
  by_cases single : ∃ type, types.flatMap alternatives = [type]
  · obtain ⟨type, single⟩ := single
    have own : ∀ t ∈ types, joined .union t.alternatives = t := fun t listed =>
      (tidy t listed).union
    rw [single, joined]
    exact tidy type (mem_of_flatMap_eq_singleton own single)
  · have same : joined .union (types.flatMap alternatives) = .union (types.flatMap alternatives) :=
      joined_of_ne (not_exists.mp single)
    rw [same]
    refine ⟨same, rfl, fun member inside => ?_, fun part inside => ?_⟩
    · obtain ⟨t, listed, inside⟩ := List.mem_flatMap.mp inside
      exact (tidy t listed).members member inside
    · rw [List.mem_singleton.mp inside]
      rfl

/-- The parts of several tidy types are a tidy intersection. -/
theorem tidy_joined_intersection : Tidy (joined .intersection (types.flatMap components)) := by
  by_cases single : ∃ type, types.flatMap components = [type]
  · obtain ⟨type, single⟩ := single
    have own : ∀ t ∈ types, joined .intersection t.components = t := fun t listed =>
      (tidy t listed).intersection
    rw [single, joined]
    exact tidy type (mem_of_flatMap_eq_singleton own single)
  · have same : joined .intersection (types.flatMap components) =
        .intersection (types.flatMap components) :=
      joined_of_ne (not_exists.mp single)
    rw [same]
    refine ⟨rfl, same, fun member inside => ?_, fun part inside => ?_⟩
    · rw [List.mem_singleton.mp inside]
      rfl
    · obtain ⟨t, listed, inside⟩ := List.mem_flatMap.mp inside
      exact (tidy t listed).parts part inside

theorem alternatives_joined_union :
    (joined .union (types.flatMap alternatives)).alternatives = types.flatMap alternatives := by
  by_cases single : ∃ type, types.flatMap alternatives = [type]
  · obtain ⟨type, single⟩ := single
    have member : type ∈ types.flatMap alternatives := by simp [single]
    obtain ⟨t, listed, inside⟩ := List.mem_flatMap.mp member
    rw [single, joined]
    exact alternatives_of_not_union ((tidy t listed).members type inside)
  · rw [joined_of_ne (not_exists.mp single), alternatives]

theorem components_joined_intersection :
    (joined .intersection (types.flatMap components)).components = types.flatMap components := by
  by_cases single : ∃ type, types.flatMap components = [type]
  · obtain ⟨type, single⟩ := single
    have member : type ∈ types.flatMap components := by simp [single]
    obtain ⟨t, listed, inside⟩ := List.mem_flatMap.mp member
    rw [single, joined]
    exact components_of_not_intersection ((tidy t listed).parts type inside)
  · rw [joined_of_ne (not_exists.mp single), components]

omit tidy

mutual

/-- **The flat form of a type is tidy.** -/
theorem tidy_flat : ∀ type : TypeExpr, Tidy type.flat
  | .primitive _ => .of_plain rfl rfl
  | .array _ => .of_plain rfl rfl
  | .union members => by
    rw [flat]
    exact tidy_joined_union (tidy_flatAll members)
  | .intersection parts => by
    rw [flat]
    exact tidy_joined_intersection (tidy_flatAll parts)
  | .object _ _ => .of_plain rfl rfl
  | .record _ _ => .of_plain rfl rfl
  | .literal _ => .of_plain rfl rfl
  | .ref _ => .of_plain rfl rfl

/-- The flat forms of several types are tidy. -/
theorem tidy_flatAll : ∀ types : List TypeExpr, ∀ type ∈ flatAll types, Tidy type
  | [], _, member => nomatch member
  | type :: types, _, member => by
    rcases List.mem_cons.mp member with rfl | later
    · exact tidy_flat type
    · exact tidy_flatAll types _ later

end

/-! ## Members of the flat form -/

/-- **The members of a flat union** are those of its flat members. -/
theorem alternatives_flat_union (members : List TypeExpr) :
    (union members).flat.alternatives = members.flatMap fun type => type.flat.alternatives := by
  rw [flat, alternatives_joined_union (tidy_flatAll members), flatAll_eq, List.flatMap_map]

/-- **The parts of a flat intersection** are those of its flat parts. -/
theorem components_flat_intersection (parts : List TypeExpr) :
    (intersection parts).flat.components = parts.flatMap fun type => type.flat.components := by
  rw [flat, components_joined_intersection (tidy_flatAll parts), flatAll_eq, List.flatMap_map]

/-- **The flat form of several types as one** that are read as members of a union. -/
theorem flat_joined_union (types : List TypeExpr) :
    (joined .union types).flat =
      joined .union (types.flatMap fun type => type.flat.alternatives) := by
  by_cases single : ∃ type, types = [type]
  · obtain ⟨type, rfl⟩ := single
    rw [joined, List.flatMap_singleton, (tidy_flat type).union]
  · rw [joined_of_ne (not_exists.mp single), flat_union]

/-- **The flat form of several types as one** that are read as parts of an intersection. -/
theorem flat_joined_intersection (types : List TypeExpr) :
    (joined .intersection types).flat =
      joined .intersection (types.flatMap fun type => type.flat.components) := by
  by_cases single : ∃ type, types = [type]
  · obtain ⟨type, rfl⟩ := single
    rw [joined, List.flatMap_singleton, (tidy_flat type).intersection]
  · rw [joined_of_ne (not_exists.mp single), flat_intersection]

end TypeExpr

end ClientGen.TypeScript
