import ClientGen.Proofs.Schema.Merging
import ClientGen.Proofs.Schema.Reordering

/-!
# Two spellings of null

That a type admits null is spelled in two ways: with the keyword `nullable` beside the name of the
type, or with the name `null` among several types. `Schema.Respelled` says that two schemas differ
in the spelling alone, at any depth.

A schema takes the null out of its own type before anything is weighed, so its form is the same in
both spellings. The schema around it looks at the type as it was spelled: the single name `object`
makes a part of `allOf` describe objects, a list of types does not. The spelling can therefore
decide whether parts are merged, and it decides nothing else.

* `Schema.RespelledWhere` — two spellings of a schema, with a condition on each pair of nodes.
* `Schema.RespelledWhere.value_shape_eq` — if each node merges its parts in both spellings or in
  none, the shapes are the same.
* `Schema.value_shape_ne_of_isMerged` — parts that are merged in one spelling and kept apart in the
  other have two shapes.
* `Schema.value_shape_besideNullableObject_ne` — an object that admits null beside an object with a
  property is such a case.

## The relation

Between two spellings the type and `nullable` change together, so `Keywords.SameType` relates them
as a pair: either both are the same, or one side has a name and the keyword and the other side has
the name and null in a list. `Keywords.Beside` relates what stands beside them. Nothing moves there,
so properties are related in their order, and equal shapes can be asked for in place of equal shapes
after sorting.

The condition is a parameter of the relation and holds of each pair of nodes. With the condition
that is always true the relation is `Schema.Respelled`. With `Schema.MergeAlike` it excludes exactly
the nodes where the spelling decides on a merge, at any depth and not at the root alone.

## Why the condition is about merges

`Keywords.isObjectLike` asks whether the type is the single name `object`. Within one schema the
question comes after null has been taken out, and `outline_typeForm` may assume one type. The parts
of `allOf` are asked as they stand, with their null. `outline_partsForm` is the one step of the
induction that needs the condition, and all steps above it hand the condition down.
-/

namespace ClientGen

/-! ## The relation -/

/-- **Keywords spell one type**: in one way, or once with the keyword `nullable` and once with null
in a list. Beside a list the keyword may say anything. -/
inductive Keywords.SameType (k k' : Keywords Schema) : Prop
  /-- Both in the same way. -/
  | same (type : k.type = k'.type) (nullable : k.nullable = k'.nullable)
  /-- A single name with the keyword, and a list of the name and null. -/
  | listed {name : String} (known : name ≠ "null") (single : k.type = some (.single name))
      (marked : k.nullable = some true) (several : k'.type = some (.several [name, "null"]))

/-- **The keywords beside the type and `nullable`**, up to a relation of schemas: equal values, and
related schemas in the same places. -/
inductive Keywords.Beside {σ τ : Type} (R : σ → τ → Prop) : Keywords σ → Keywords τ → Prop
  /-- Keywords that stand in the relation, one by one. -/
  | intro {type type' : Option TypeNames} {ref : Option String} {properties : Option (OrderedMap σ)}
      {properties' : Option (OrderedMap τ)} {required : Option (List String)}
      {items : Option σ} {items' : Option τ} {values : Option (List Json)} {value : Option Json}
      {anyOf oneOf allOf : Option (List σ)} {anyOf' oneOf' allOf' : Option (List τ)}
      {additional : Option (Additional σ)} {additional' : Option (Additional τ)}
      {format : Option String} {nullable nullable' : Option Bool} {description : Option String}
      (relProperties : Option.Rel (OrderedMap.Aligned R) properties properties')
      (relItems : Option.Rel R items items')
      (relAnyOf : Option.Rel (List.Forall₂ R) anyOf anyOf')
      (relOneOf : Option.Rel (List.Forall₂ R) oneOf oneOf')
      (relAllOf : Option.Rel (List.Forall₂ R) allOf allOf')
      (relAdditional : Option.Rel (Additional.Rel R) additional additional') :
      Keywords.Beside R
        { type, ref, properties, required, items, values, value, anyOf, oneOf, allOf, additional,
          format, nullable, description }
        { type := type', ref, properties := properties', required, items := items', values, value,
          anyOf := anyOf', oneOf := oneOf', allOf := allOf', additional := additional', format,
          nullable := nullable', description }

/-- **Two spellings of a schema** in which a condition holds of each pair of nodes. -/
inductive Schema.RespelledWhere (condition : Schema → Schema → Prop) : Schema → Schema → Prop
  /-- What is no schema has one spelling. -/
  | malformed (reason : String) :
      Schema.RespelledWhere condition (.malformed reason) (.malformed reason)
  /-- The type is spelled in one way or two, and so is each schema inside. -/
  | keywords {k k' : Keywords Schema} (type : k.SameType k')
      (beside : Keywords.Beside (Schema.RespelledWhere condition) k k')
      (holds : condition (.keywords k) (.keywords k')) :
      Schema.RespelledWhere condition (.keywords k) (.keywords k')

/-- **Two spellings of a schema.** -/
def Schema.Respelled : Schema → Schema → Prop :=
  Schema.RespelledWhere fun _ _ => True

/-- Whether a form is that of merged parts. -/
def Form.isMerged : Form → Bool
  | .merged .. => true
  | _ => false

/-- Both schemas merge their parts, or neither does. -/
def Schema.MergeAlike (s s' : Schema) : Prop :=
  s.form.isMerged = s'.form.isMerged

/-- **Every spelling of a schema has its outline.** -/
def Schema.OutlineKept (condition : Schema → Schema → Prop) (s : Schema) : Prop :=
  ∀ s', s.RespelledWhere condition s' → s.outline = s'.outline

/-! ## One type in two spellings -/

namespace Keywords.SameType

variable {k k' : Keywords Schema}

/-- Both spellings name a type, or neither does. -/
theorem type_isNone_eq (same : k.SameType k') : k.type.isNone = k'.type.isNone := by
  cases same with
  | same type nullable => rw [type]
  | listed known single marked several => rw [single, several]; rfl

/-- **Both spellings admit null, or neither does.** The keyword `nullable` and the name `null` in a
list count alike. -/
theorem admitsNull_eq (same : k.SameType k') (ref : k.ref = k'.ref) :
    (Schema.keywords k).admitsNull = (Schema.keywords k').admitsNull := by
  cases same with
  | same type nullable => simp [Schema.admitsNull, Schema.keywords?, listsNull, ref, type, nullable]
  | listed known single marked several =>
      simp [Schema.admitsNull, Schema.keywords?, listsNull, ref, single, marked, several]

/-- Both spellings ask for null alone, or neither does. A list of null and another name never
does. -/
theorem isNullOnly_eq (same : k.SameType k') : k.isNullOnly = k'.isNullOnly := by
  cases same with
  | same type nullable => simp only [isNullOnly, hasType, listsNull, typeNames, type]
  | listed known single marked several =>
      simp [isNullOnly, hasType, listsNull, typeNames, single, several, known]

/-- Without null there is one spelling left. -/
theorem type_withoutNull (same : k.SameType k') : k.withoutNull.type = k'.withoutNull.type := by
  cases same with
  | same type nullable =>
      unfold withoutNull
      simp only [typeNames, type]
      split <;> simp only [type]
  | listed known single marked several =>
      simp [withoutNull, typeNames, single, several, known]

end Keywords.SameType

/-! ## Keywords beside the type -/

namespace Keywords.Beside

variable {R : Schema → Schema → Prop} {k k' : Keywords Schema}

/-- Both refer to the same schema, or neither refers to any. -/
theorem ref_eq (beside : Keywords.Beside R k k') : k.ref = k'.ref := by
  cases beside
  rfl

/-- The same names are required in the same order. -/
theorem required_eq (beside : Keywords.Beside R k k') : k.required = k'.required := by
  cases beside
  rfl

theorem values_eq (beside : Keywords.Beside R k k') : k.values = k'.values := by
  cases beside
  rfl

theorem value_eq (beside : Keywords.Beside R k k') : k.value = k'.value := by
  cases beside
  rfl

theorem format_eq (beside : Keywords.Beside R k k') : k.format = k'.format := by
  cases beside
  rfl

/-- The properties have the same names in the same order, and related schemas. -/
theorem properties (beside : Keywords.Beside R k k') :
    Option.Rel (OrderedMap.Aligned R) k.properties k'.properties := by
  cases beside
  assumption

/-- The properties are aligned where none are listed. -/
theorem getD_properties (beside : Keywords.Beside R k k') :
    OrderedMap.Aligned R (k.properties.getD []) (k'.properties.getD []) := by
  cases beside with
  | intro listed =>
      cases listed with
      | none => exact .nil
      | some aligned => exact aligned

/-- The items of arrays are related. -/
theorem items (beside : Keywords.Beside R k k') : Option.Rel R k.items k'.items := by
  cases beside
  assumption

theorem anyOf (beside : Keywords.Beside R k k') :
    Option.Rel (List.Forall₂ R) k.anyOf k'.anyOf := by
  cases beside
  assumption

theorem oneOf (beside : Keywords.Beside R k k') :
    Option.Rel (List.Forall₂ R) k.oneOf k'.oneOf := by
  cases beside
  assumption

/-- The parts of a conjunction are related in their order. -/
theorem allOf (beside : Keywords.Beside R k k') :
    Option.Rel (List.Forall₂ R) k.allOf k'.allOf := by
  cases beside
  assumption

/-- What is said about further members is related. -/
theorem additional (beside : Keywords.Beside R k k') :
    Option.Rel (Additional.Rel R) k.additional k'.additional := by
  cases beside
  assumption

/-! ### What keywords say about themselves -/

/-- Keywords that only require members name no type, and whether one is named is all that counts of
the type. -/
theorem isRequiredOnly_eq (beside : Keywords.Beside R k k')
    (type : k.type.isNone = k'.type.isNone) : k.isRequiredOnly = k'.isRequiredOnly := by
  rw [isRequiredOnly, isRequiredOnly, beside.required_eq, type, beside.properties.isNone_eq,
    beside.additional.isNone_eq, lists_members_eq beside.oneOf, lists_members_eq beside.anyOf,
    lists_members_eq beside.allOf, beside.values_eq]

/-- Keywords with one type describe objects in both spellings. With two spellings of the type this
fails, so the equation is a hypothesis. -/
theorem isObjectLike_eq (beside : Keywords.Beside R k k') (type : k.type = k'.type) :
    k.isObjectLike = k'.isObjectLike := by
  rw [isObjectLike, isObjectLike, hasType, hasType, type, beside.properties.isSome_eq,
    allowsMore_eq beside.additional]

/-- Taking null out of both types leaves the keywords beside them as they were. -/
theorem withoutNull (beside : Keywords.Beside R k k') :
    Keywords.Beside R k.withoutNull k'.withoutNull := by
  obtain ⟨type, left⟩ := k.withoutNull_eq
  obtain ⟨type', right⟩ := k'.withoutNull_eq
  rw [left, right]
  cases beside
  exact .intro ‹_› ‹_› ‹_› ‹_› ‹_› ‹_›

end Keywords.Beside

namespace Schema.RespelledWhere

variable {condition : Schema → Schema → Prop} {s s' : Schema}

/-- Both schemas admit null, or neither does. -/
theorem admitsNull_eq (respelled : s.RespelledWhere condition s') :
    s.admitsNull = s'.admitsNull := by
  cases respelled with
  | malformed reason => rfl
  | keywords type beside holds => exact type.admitsNull_eq beside.ref_eq

/-- Both schemas constrain which names are required and nothing else, or neither does. -/
theorem isConstraint_eq (respelled : s.RespelledWhere condition s') :
    s.isConstraint = s'.isConstraint := by
  cases respelled with
  | malformed reason => rfl
  | @keywords k k' type beside holds =>
      show (k.ref.isNone && k.isRequiredOnly) = (k'.ref.isNone && k'.isRequiredOnly)
      rw [beside.ref_eq, beside.isRequiredOnly_eq type.type_isNone_eq]

end Schema.RespelledWhere

/-! ## Merged parts -/

/-- What two spellings of several schemas say about objects together. -/
structure Merged.Respelled (condition : Schema → Schema → Prop) (m m' : Merged) : Prop where
  /-- The properties are spelled in one way or two. -/
  properties : OrderedMap.Aligned (Schema.RespelledWhere condition) m.properties m'.properties
  /-- The same names are required. -/
  required : m.required = m'.required
  /-- The same is said about further members. -/
  additional :
    Option.Rel (Additional.Rel (Schema.RespelledWhere condition)) m.additional m'.additional

/-- A merge takes up a further part in either spelling. -/
theorem Merged.Respelled.add {condition : Schema → Schema → Prop} {m m' : Merged} {s s' : Schema}
    (merged : m.Respelled condition m') (respelled : s.RespelledWhere condition s') :
    (m.add s).Respelled condition (m'.add s') := by
  cases respelled with
  | malformed reason => exact merged
  | keywords type beside holds =>
      refine ⟨merged.properties.insertAll beside.getD_properties, ?_,
        beside.additional.or merged.additional⟩
      simp only [Merged.add, merged.required, beside.required_eq]

/-- Parts in two spellings are merged to properties in two spellings. -/
theorem Merged.Respelled.ofParts {condition : Schema → Schema → Prop} {parts parts' : List Schema}
    (rel : List.Forall₂ (Schema.RespelledWhere condition) parts parts') :
    (Merged.ofParts parts).Respelled condition (Merged.ofParts parts') :=
  List.rel_foldl (fun _ _ merged _ _ respelled => merged.add respelled)
    ⟨.nil, rfl, .none⟩ rel

/-- Parts are merged if each of them describes objects. -/
theorem Keywords.isMerged_partsForm (parts : List Schema) :
    (Keywords.partsForm parts).isMerged = parts.all Schema.isObjectLike := by
  unfold Keywords.partsForm
  split
  · rename_i objects
    exact objects.symm
  · rename_i others
    rw [Bool.eq_false_iff.mpr others]
    split <;> rfl

/-! ## Outlines -/

section Outlines

variable {condition : Schema → Schema → Prop} {k k' : Keywords Schema}

/-- Objects have one outline if the schemas inside do. -/
theorem outlineObject_eq {properties properties' : OrderedMap Schema} {required : List String}
    {additional additional' : Option (Additional Schema)}
    (inner : ∀ s ∈ objectMembers properties additional, s.OutlineKept condition)
    (relProperties :
      OrderedMap.Aligned (Schema.RespelledWhere condition) properties properties')
    (relAdditional :
      Option.Rel (Additional.Rel (Schema.RespelledWhere condition)) additional additional') :
    outlineObject properties required additional =
      outlineObject properties' required additional' := by
  have listed : OrderedMap.mapValues Schema.outline properties =
      OrderedMap.mapValues Schema.outline properties' :=
    relProperties.mapValues_eq fun entry member =>
      inner _ (List.mem_append_left _ (List.mem_map_of_mem member))
  have further : outlineExtra additional = outlineExtra additional' := by
    cases relAdditional with
    | none => rfl
    | some related =>
        cases related with
        | flag allowed => rfl
        | schema values =>
            have kept := inner _ (by simp [objectMembers, Additional.schema?]) _ values
            exact congrArg Extra.allowed kept
  rw [outlineObject, outlineObject, listed, further]

namespace Keywords.Beside

variable (beside : Keywords.Beside (Schema.RespelledWhere condition) k k')
include beside

/-- The outline of keywords that describe objects. -/
theorem outline_objects (inner : ∀ s ∈ k.objects.members, s.OutlineKept condition) :
    k.objects.outline = k'.objects.outline := by
  rw [objects, objects, TypeForm.outline_object, TypeForm.outline_object, beside.required_eq]
  exact outlineObject_eq inner beside.getD_properties beside.additional

theorem outline_array (inner : ∀ s ∈ k.items, s.OutlineKept condition) :
    (TypeForm.array k.items).outline = (TypeForm.array k'.items).outline := by
  rw [TypeForm.outline_array, TypeForm.outline_array, beside.items.map_eq inner]

theorem outline_named {name : String}
    (inner : ∀ s ∈ (k.named name).members, s.OutlineKept condition) :
    (k.named name).outline = (k'.named name).outline := by
  revert inner
  unfold Keywords.named
  split <;> intro inner
  · exact beside.outline_objects inner
  · exact beside.outline_array fun s present => inner s (Option.mem_toList.mpr present)
  · rw [beside.format_eq]

/-- The outline of the type. Null is out of it, so there is one spelling left. -/
theorem outline_typeForm (type : k.type = k'.type)
    (inner : ∀ s ∈ k.typeForm.members, s.OutlineKept condition) :
    k.typeForm.outline = k'.typeForm.outline := by
  revert inner
  unfold Keywords.typeForm
  rw [beside.isObjectLike_eq type, hasType, hasType, beside.isRequiredOnly_eq (by rw [type]), type]
  -- both spellings have one type by now, so they take one branch
  split
  · intro inner
    rw [Form.outline_typed, Form.outline_typed, beside.outline_objects inner]
  split
  · intro inner
    rw [Form.outline_typed, Form.outline_typed]
    exact beside.outline_array fun s present => inner s (Option.mem_toList.mpr present)
  split
  · intro _
    rw [beside.required_eq]
  split
  · intro _
    rw [beside.format_eq]
  · intro inner
    rw [Form.outline_oneOfTypes, Form.outline_oneOfTypes, List.map_map, List.map_map]
    refine congrArg _ (List.map_congr_left fun name listed => ?_)
    exact beside.outline_named fun s member =>
      inner s (List.mem_flatMap_of_mem (List.mem_map_of_mem listed) member)
  · intro _
    rfl

end Keywords.Beside

/-- Parts have one outline in two spellings if both or neither are merged. -/
theorem outline_partsForm {parts parts' : List Schema}
    (rel : List.Forall₂ (Schema.RespelledWhere condition) parts parts')
    (alike : (Keywords.partsForm parts).isMerged = (Keywords.partsForm parts').isMerged)
    (inner : ∀ s ∈ (Keywords.partsForm parts).members, s.OutlineKept condition) :
    (Keywords.partsForm parts).outline = (Keywords.partsForm parts').outline := by
  rw [Keywords.isMerged_partsForm, Keywords.isMerged_partsForm] at alike
  revert inner
  unfold Keywords.partsForm
  rw [alike]
  split
  -- a merge holds schemas from inside the parts, so the outlines of the parts do not suffice
  · intro inner
    have merged := Merged.Respelled.ofParts rel
    rw [Merged.form, Merged.form, Form.outline_merged, Form.outline_merged, merged.required]
    exact outlineObject_eq inner merged.properties merged.additional
  · intro inner
    cases rel with
    | nil => rfl
    | cons first rest =>
        cases rest with
        | nil =>
            rw [Form.outline_only, Form.outline_only]
            exact inner _ (List.mem_singleton_self _) _ first
        | cons second rest =>
            have every := (List.Forall₂.cons first (.cons second rest)).map_eq inner
            rw [Form.outline_intersection, Form.outline_intersection, every]

namespace Keywords.Beside

variable (beside : Keywords.Beside (Schema.RespelledWhere condition) k k')
include beside

/-- The outline of `allOf`, or of the type where it lists nothing. -/
theorem outline_partsOrType (type : k.type = k'.type)
    (alike : k.partsOrType.isMerged = k'.partsOrType.isMerged)
    (inner : ∀ s ∈ k.partsOrType.members, s.OutlineKept condition) :
    k.partsOrType.outline = k'.partsOrType.outline := by
  have parts := beside.allOf
  have below := beside.outline_typeForm type
  revert inner alike
  unfold Keywords.partsOrType
  generalize k.allOf = listed, k'.allOf = listed' at parts ⊢
  intro alike inner
  cases parts with
  | none => exact below inner
  | some parts =>
      cases parts with
      | nil => exact below inner
      | cons first rest => exact outline_partsForm (.cons first rest) alike inner

/-- The outline of `anyOf`, or of what stands below it. The condition on merges is passed down
unchanged. -/
theorem outline_anyOfOrBelow (type : k.type = k'.type)
    (alike : k.anyOfOrBelow.isMerged = k'.anyOfOrBelow.isMerged)
    (inner : ∀ s ∈ k.anyOfOrBelow.members, s.OutlineKept condition) :
    k.anyOfOrBelow.outline = k'.anyOfOrBelow.outline := by
  have members := beside.anyOf
  have below := beside.outline_partsOrType type
  revert inner alike
  unfold Keywords.anyOfOrBelow
  rw [beside.isObjectLike_eq type]
  generalize k.anyOf = listed, k'.anyOf = listed' at members ⊢
  cases members with
  | none => exact below
  | some members =>
      cases members with
      | nil => exact below
      | cons first rest =>
          dsimp only
          rw [(List.Forall₂.cons first rest).all_eq Schema.RespelledWhere.isConstraint_eq]
          -- both spellings pass over the members, or neither does
          split
          · exact below
          · intro _ inner
            have every := (List.Forall₂.cons first rest).map_eq inner
            rw [Form.outline_union, Form.outline_union, every]

/-- The outline of `oneOf`, or of what stands below it. -/
theorem outline_unionOrBelow (type : k.type = k'.type)
    (alike : k.unionOrBelow.isMerged = k'.unionOrBelow.isMerged)
    (inner : ∀ s ∈ k.unionOrBelow.members, s.OutlineKept condition) :
    k.unionOrBelow.outline = k'.unionOrBelow.outline := by
  have members := beside.oneOf
  have below := beside.outline_anyOfOrBelow type
  revert inner alike
  unfold Keywords.unionOrBelow
  generalize k.oneOf = listed, k'.oneOf = listed' at members ⊢
  cases members with
  | none => exact below
  | some members =>
      cases members with
      | nil => exact below
      | cons first rest =>
          intro _ inner
          have every := (List.Forall₂.cons first rest).map_eq inner
          rw [Form.outline_union, Form.outline_union, every]

/-- The outline of keywords that have no reference and do not ask for null alone. -/
theorem outline_form (type : k.type = k'.type) (alike : k.form.isMerged = k'.form.isMerged)
    (inner : ∀ s ∈ k.form.members, s.OutlineKept condition) : k.form.outline = k'.form.outline := by
  have below := beside.outline_unionOrBelow type
  revert inner alike
  unfold Keywords.form
  rw [beside.values_eq, beside.value_eq]
  split
  · exact fun _ _ => rfl
  · split
    · exact fun _ _ => rfl
    · exact below

end Keywords.Beside

end Outlines

namespace Schema

/-- Schemas that merge alike have forms with one outline in two spellings. -/
theorem RespelledWhere.outline_form_eq {condition : Schema → Schema → Prop} {s s' : Schema}
    (respelled : s.RespelledWhere condition s') (alike : s.MergeAlike s')
    (inner : ∀ t ∈ s.form.members, t.OutlineKept condition) : s.form.outline = s'.form.outline := by
  cases respelled with
  | malformed reason => rfl
  | keywords type beside holds =>
      -- null is taken out before anything is weighed, and what is left has one spelling
      have below := beside.withoutNull.outline_form type.type_withoutNull
      revert inner alike
      unfold MergeAlike Schema.form
      simp only [beside.ref_eq, type.isNullOnly_eq]
      split
      · exact fun _ _ => rfl
      · split
        · exact fun _ _ => rfl
        · exact fun inner alike => below alike inner

/-- **The spelling of null does not matter where it does not decide on a merge.** If each node
merges its parts in both spellings or in none, the shapes are the same. -/
theorem RespelledWhere.value_shape_eq {s s' : Schema} (respelled : s.RespelledWhere MergeAlike s')
    (place : Option String) : (s.shape place).value = (s'.shape place).value := by
  rw [value_shape, value_shape]
  -- the induction is on the forms of one schema, so the other spelling stays universal
  suffices kept : ∀ s : Schema, s.OutlineKept MergeAlike from kept s s' respelled
  intro s
  induction s using form_induction with
  | step s inner =>
      intro s' respelled
      have alike : s.MergeAlike s' := by
        cases respelled with
        | malformed reason => rfl
        | keywords type beside holds => exact holds
      rw [outline_eq, outline_eq, respelled.admitsNull_eq, respelled.outline_form_eq alike inner]

/-- An object that admits null, with the keyword or with a list of types. -/
def nullableObject : Bool → Schema
  | false => .keywords { Keywords.blank with
      type := some (.single "object")
      nullable := some true }
  | true => .keywords { Keywords.blank with type := some (.several ["object", "null"]) }

/-- A string. -/
def plainString : Schema :=
  .keywords { Keywords.blank with type := some (.single "string") }

/-- An object that has an object that admits null as a property. -/
def aroundNullableObject (listed : Bool) : Schema :=
  .keywords { Keywords.blank with properties := some [("inner", nullableObject listed)] }

/-- An object that admits null and an object with a property, both at once. -/
def besideNullableObject (listed : Bool) : Schema :=
  .keywords { Keywords.blank with
    allOf := some [nullableObject listed, .keywords { Keywords.blank with
      properties := some [("x", plainString)] }] }

/-- The two objects that admit null are two spellings of one schema. -/
theorem respelled_nullableObject {condition : Schema → Schema → Prop}
    (holds : condition (nullableObject false) (nullableObject true)) :
    (nullableObject false).RespelledWhere condition (nullableObject true) :=
  .keywords (.listed (by decide) rfl rfl rfl) (.intro .none .none .none .none .none .none) holds

/-- As a property the two spellings of an object that admits null have one shape. -/
theorem value_shape_aroundNullableObject :
    (aroundNullableObject false).RespelledWhere MergeAlike (aroundNullableObject true) ∧
      ((aroundNullableObject false).shape none).value =
        ((aroundNullableObject true).shape none).value := by
  have respelled :
      (aroundNullableObject false).RespelledWhere MergeAlike (aroundNullableObject true) := by
    refine .keywords (.same rfl rfl) (.intro (.some ?_) .none .none .none .none .none) rfl
    exact .cons "inner" (respelled_nullableObject rfl) .nil
  exact ⟨respelled, respelled.value_shape_eq none⟩

/-- **Merged parts and parts that are kept apart** never have the same shape. -/
theorem value_shape_ne_of_isMerged {s s' : Schema} {parts : List Schema}
    (merged : s.form.isMerged) (apart : s'.form = .intersection parts) (place : Option String) :
    (s.shape place).value ≠ (s'.shape place).value := by
  rw [value_shape, value_shape, outline_eq, outline_eq, apart, Form.outline_intersection]
  cases form : s.form with
  | merged conflicts properties required additional =>
      rw [Form.outline_merged, outlineObject]
      split <;> split <;> simp [Shape.orNull]
  | _ => simp [form, Form.isMerged] at merged

/-- **The spelling of null can matter**: it decides whether the parts are merged. -/
theorem value_shape_besideNullableObject_ne :
    (besideNullableObject false).Respelled (besideNullableObject true) ∧
      ((besideNullableObject false).shape none).value ≠
        ((besideNullableObject true).shape none).value := by
  have string : plainString.Respelled plainString :=
    .keywords (.same rfl rfl) (.intro .none .none .none .none .none .none) trivial
  have merged : (besideNullableObject false).form.isMerged = true := rfl
  have apart : ∃ parts, (besideNullableObject true).form = .intersection parts := ⟨_, rfl⟩
  refine ⟨.keywords (.same rfl rfl) (.intro .none .none .none .none (.some ?_) .none) trivial, ?_⟩
  · refine .cons (respelled_nullableObject trivial) (.cons ?_ .nil)
    refine .keywords (.same rfl rfl) (.intro (.some ?_) .none .none .none .none .none) trivial
    exact .cons "x" string .nil
  · obtain ⟨parts, apart⟩ := apart
    exact value_shape_ne_of_isMerged merged apart none

end Schema

end ClientGen
