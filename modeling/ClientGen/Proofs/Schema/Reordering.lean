import ClientGen.Proofs.Naming.Runs
import ClientGen.Proofs.Schema.Outline
import ClientGen.Proofs.Shape.Sorted

/-!
# Schemas in another order

A schema may list its properties in another order, and name what it requires in another order or
more than once. `Schema.Reordered` says that two schemas differ in nothing else, at any depth.

* `Schema.Reordered` — the relation, through every keyword that holds schemas.
* `Merged.Reordered` — what several schemas say about objects together, in another order.
* `Schema.Reordered.form` — reordered schemas ask for the same thing in another order.
* `Schema.Reordered.outline_sorted` — their outlines have one canonical order.

## Agreement instead of equality

Two places build a map in the order of a schema: the properties of an object and the merge of the
keyword `allOf`. `OrderedMap.Agree` says of two such maps that they have the same names and that
related schemas stand under each name, in any order. Agreement passes through both places, and the
canonical order then forgets what agreement leaves open. Required names are treated alike:
`SameNames` is all that a merge keeps of their order, and all that sorting leaves of it.

Every other keyword keeps its order. The order of types, of the members of a union and of the parts
of an intersection shows in the shape, so these are related one by one.

## The shape of the argument

The relation is inductive and speaks about keywords, while a shape is read off the form of a schema,
that is, off what is left once the keywords have been weighed against each other. The module
therefore goes in three steps. The questions that decide on a form (`isObjectLike`, `isConstraint`,
`isRequiredOnly` and the others) have one answer for both schemas. Then both have a form of one
kind, by following the order in which keywords are asked about. Last, sorted outlines pass from the
schemas inside a form to the form itself, and `Schema.form_induction` makes this a statement about
all schemas.

The number of contradictions in a merge is the one thing that may differ between two forms. It
counts for the notes alone, and an outline has no notes.
-/

namespace ClientGen

/-! ## The relation -/

/-- Lists of the same names, in any order and any number. -/
def SameNames (names others : List String) : Prop :=
  ∀ name, name ∈ names ↔ name ∈ others

/-- Lists of the same names are empty together. -/
theorem SameNames.isEmpty_eq {names others : List String} (same : SameNames names others) :
    names.isEmpty = others.isEmpty := by
  rw [Bool.eq_iff_iff, List.isEmpty_iff, List.isEmpty_iff, List.eq_nil_iff_forall_not_mem,
    List.eq_nil_iff_forall_not_mem]
  exact forall_congr' fun name => not_congr (same name)

/-- What is said about further members, up to a relation of schemas. -/
inductive Additional.Rel {σ τ : Type} (R : σ → τ → Prop) : Additional σ → Additional τ → Prop
  /-- The same truth value. -/
  | flag (allowed : Bool) : Additional.Rel R (.flag allowed) (.flag allowed)
  /-- Related schemas. -/
  | schema {s : σ} {t : τ} (values : R s t) : Additional.Rel R (.schema s) (.schema t)

/-- **Keywords up to a relation of schemas.** Properties agree, required names are the same ones,
and every other keyword has the same value or related schemas in the same order. -/
inductive Keywords.Rel {σ τ : Type} (R : σ → τ → Prop) : Keywords σ → Keywords τ → Prop
  /-- Keywords that stand in the relation, one by one. -/
  | intro {type : Option TypeNames} {ref : Option String} {properties : Option (OrderedMap σ)}
      {properties' : Option (OrderedMap τ)} {required required' : Option (List String)}
      {items : Option σ} {items' : Option τ} {values : Option (List Json)} {value : Option Json}
      {anyOf oneOf allOf : Option (List σ)} {anyOf' oneOf' allOf' : Option (List τ)}
      {additional : Option (Additional σ)} {additional' : Option (Additional τ)}
      {format : Option String} {nullable : Option Bool} {description : Option String}
      (relProperties : Option.Rel (OrderedMap.Agree R) properties properties')
      (relRequired : Option.Rel SameNames required required')
      (relItems : Option.Rel R items items')
      (relAnyOf : Option.Rel (List.Forall₂ R) anyOf anyOf')
      (relOneOf : Option.Rel (List.Forall₂ R) oneOf oneOf')
      (relAllOf : Option.Rel (List.Forall₂ R) allOf allOf')
      (relAdditional : Option.Rel (Additional.Rel R) additional additional') :
      Keywords.Rel R
        { type, ref, properties, required, items, values, value, anyOf, oneOf, allOf, additional,
          format, nullable, description }
        { type, ref, properties := properties', required := required', items := items', values,
          value, anyOf := anyOf', oneOf := oneOf', allOf := allOf', additional := additional',
          format, nullable, description }

/-- **Two schemas that differ only in order**: in the order of properties, and in the order and the
repetition of required names, at any depth. -/
inductive Schema.Reordered : Schema → Schema → Prop
  /-- What is no schema has no order. -/
  | malformed (reason : String) : Schema.Reordered (.malformed reason) (.malformed reason)
  /-- Keywords in another order. -/
  | keywords {k k' : Keywords Schema} (rel : Keywords.Rel Schema.Reordered k k') :
      Schema.Reordered (.keywords k) (.keywords k')

/-- The form of a type in another order. -/
inductive TypeForm.Reordered : TypeForm → TypeForm → Prop
  /-- Nothing is in another order. -/
  | same (type : TypeForm) : TypeForm.Reordered type type
  /-- Objects with properties in another order. -/
  | object {properties properties' : OrderedMap Schema} {required required' : List String}
      {additional additional' : Option (Additional Schema)}
      (relProperties : OrderedMap.Agree Schema.Reordered properties properties')
      (relRequired : SameNames required required')
      (relAdditional : Option.Rel (Additional.Rel Schema.Reordered) additional additional') :
      TypeForm.Reordered (.object properties required additional)
        (.object properties' required' additional')
  /-- Arrays with items in another order. -/
  | array {items items' : Option Schema} (relItems : Option.Rel Schema.Reordered items items') :
      TypeForm.Reordered (.array items) (.array items')

/-- A form in another order. The number of contradictions may differ: it counts for the notes
alone. -/
inductive Form.Reordered : Form → Form → Prop
  /-- Nothing is in another order. -/
  | same (form : Form) : Form.Reordered form form
  /-- Members of a union in another order inside. -/
  | union (keyword : String) {members members' : List Schema}
      (rel : List.Forall₂ Schema.Reordered members members') :
      Form.Reordered (.union keyword members) (.union keyword members')
  /-- A single part in another order inside. -/
  | only {part part' : Schema} (rel : part.Reordered part') :
      Form.Reordered (.only part) (.only part')
  /-- Parts in another order inside. -/
  | intersection {parts parts' : List Schema}
      (rel : List.Forall₂ Schema.Reordered parts parts') :
      Form.Reordered (.intersection parts) (.intersection parts')
  /-- Merged objects with properties in another order. -/
  | merged {conflicts conflicts' : Nat} {properties properties' : OrderedMap Schema}
      {required required' : List String} {additional additional' : Option (Additional Schema)}
      (relProperties : OrderedMap.Agree Schema.Reordered properties properties')
      (relRequired : SameNames required required')
      (relAdditional : Option.Rel (Additional.Rel Schema.Reordered) additional additional') :
      Form.Reordered (.merged conflicts properties required additional)
        (.merged conflicts' properties' required' additional')
  /-- A type in another order. -/
  | typed {type type' : TypeForm} (rel : type.Reordered type') :
      Form.Reordered (.typed type) (.typed type')
  /-- Several types in another order inside. -/
  | oneOfTypes {types types' : List TypeForm}
      (rel : List.Forall₂ TypeForm.Reordered types types') :
      Form.Reordered (.oneOfTypes types) (.oneOfTypes types')

/-! ## Keywords in another order -/

namespace Keywords

variable {σ τ : Type} {R : σ → τ → Prop}

/-- Related lists are empty together. -/
theorem lists_members_eq {members : Option (List σ)} {members' : Option (List τ)}
    (rel : Option.Rel (List.Forall₂ R) members members') : lists members = lists members' := by
  cases rel with
  | none => rfl
  | some related => cases related <;> rfl

/-- What is said about further members allows them or not, up to any relation of schemas. -/
theorem allowsMore_eq {k : Keywords σ} {k' : Keywords τ}
    (further : Option.Rel (Additional.Rel R) k.additional k'.additional) :
    k.allowsMore = k'.allowsMore := by
  unfold allowsMore
  generalize k.additional = additional, k'.additional = additional' at further ⊢
  cases further with
  | none => rfl
  | some related => cases related <;> rfl

end Keywords

namespace Keywords.Rel

variable {k k' : Keywords Schema}

/-- The types are the same, in the same order: their order decides the order of a union. -/
theorem type_eq (rel : Keywords.Rel Schema.Reordered k k') : k.type = k'.type := by
  cases rel
  rfl

/-- Both refer to the same schema, or neither refers to any. -/
theorem ref_eq (rel : Keywords.Rel Schema.Reordered k k') : k.ref = k'.ref := by
  cases rel
  rfl

theorem values_eq (rel : Keywords.Rel Schema.Reordered k k') : k.values = k'.values := by
  cases rel
  rfl

theorem value_eq (rel : Keywords.Rel Schema.Reordered k k') : k.value = k'.value := by
  cases rel
  rfl

theorem format_eq (rel : Keywords.Rel Schema.Reordered k k') : k.format = k'.format := by
  cases rel
  rfl

/-- Both are marked as admitting null, or neither is. -/
theorem nullable_eq (rel : Keywords.Rel Schema.Reordered k k') : k.nullable = k'.nullable := by
  cases rel
  rfl

theorem description_eq (rel : Keywords.Rel Schema.Reordered k k') :
    k.description = k'.description := by
  cases rel
  rfl

/-- The properties agree: they have the same names, and what one name stands for is related. -/
theorem properties (rel : Keywords.Rel Schema.Reordered k k') :
    Option.Rel (OrderedMap.Agree Schema.Reordered) k.properties k'.properties := by
  cases rel
  assumption

/-- The same names are required. -/
theorem required (rel : Keywords.Rel Schema.Reordered k k') :
    Option.Rel SameNames k.required k'.required := by
  cases rel
  assumption

/-- The items of arrays are related. -/
theorem items (rel : Keywords.Rel Schema.Reordered k k') :
    Option.Rel Schema.Reordered k.items k'.items := by
  cases rel
  assumption

theorem anyOf (rel : Keywords.Rel Schema.Reordered k k') :
    Option.Rel (List.Forall₂ Schema.Reordered) k.anyOf k'.anyOf := by
  cases rel
  assumption

theorem oneOf (rel : Keywords.Rel Schema.Reordered k k') :
    Option.Rel (List.Forall₂ Schema.Reordered) k.oneOf k'.oneOf := by
  cases rel
  assumption

/-- The parts of a conjunction are related in their order. -/
theorem allOf (rel : Keywords.Rel Schema.Reordered k k') :
    Option.Rel (List.Forall₂ Schema.Reordered) k.allOf k'.allOf := by
  cases rel
  assumption

/-- What is said about further members is related. -/
theorem additional (rel : Keywords.Rel Schema.Reordered k k') :
    Option.Rel (Additional.Rel Schema.Reordered) k.additional k'.additional := by
  cases rel
  assumption

/-! ### What keywords say about themselves -/

theorem hasType_eq (rel : Keywords.Rel Schema.Reordered k k') (name : String) :
    k.hasType name = k'.hasType name := by
  rw [hasType, hasType, rel.type_eq]

/-- The same types are listed. -/
theorem typeNames_eq (rel : Keywords.Rel Schema.Reordered k k') :
    k.typeNames = k'.typeNames := by
  rw [typeNames, typeNames, rel.type_eq]

theorem listsNull_eq (rel : Keywords.Rel Schema.Reordered k k') :
    k.listsNull = k'.listsNull := by
  rw [listsNull, listsNull, rel.type_eq]

/-- Both ask for null alone, or neither does. -/
theorem isNullOnly_eq (rel : Keywords.Rel Schema.Reordered k k') :
    k.isNullOnly = k'.isNullOnly := by
  rw [isNullOnly, isNullOnly, rel.hasType_eq, rel.listsNull_eq, rel.typeNames_eq]

/-- Whether keywords describe objects depends on the presence of properties and not on their
order. -/
theorem isObjectLike_eq (rel : Keywords.Rel Schema.Reordered k k') :
    k.isObjectLike = k'.isObjectLike := by
  rw [isObjectLike, isObjectLike, rel.hasType_eq, rel.properties.isSome_eq,
    allowsMore_eq rel.additional]

/-- Lists of required names that hold the same names are empty together. -/
theorem lists_required_eq {required required' : Option (List String)}
    (rel : Option.Rel SameNames required required') : lists required = lists required' := by
  cases rel with
  | none => rfl
  | @some names others same =>
      have empty := same.isEmpty_eq
      cases names <;> cases others <;> simp_all [lists]

/-- Both only require members, or neither does. -/
theorem isRequiredOnly_eq (rel : Keywords.Rel Schema.Reordered k k') :
    k.isRequiredOnly = k'.isRequiredOnly := by
  rw [isRequiredOnly, isRequiredOnly, lists_required_eq rel.required, rel.type_eq,
    rel.properties.isNone_eq, rel.additional.isNone_eq, lists_members_eq rel.oneOf,
    lists_members_eq rel.anyOf, lists_members_eq rel.allOf, rel.values_eq]

/-- Taking null out of the type leaves every other keyword as it was. -/
theorem withoutNull (rel : Keywords.Rel Schema.Reordered k k') :
    Keywords.Rel Schema.Reordered k.withoutNull k'.withoutNull := by
  cases rel with
  | @intro type =>
      cases type with
      | none => exact .intro ‹_› ‹_› ‹_› ‹_› ‹_› ‹_› ‹_›
      | some type => cases type <;> exact .intro ‹_› ‹_› ‹_› ‹_› ‹_› ‹_› ‹_›

end Keywords.Rel

namespace Schema.Reordered

variable {s s' : Schema}

/-- Both schemas describe objects, or neither does. -/
theorem isObjectLike_eq (reordered : s.Reordered s') : s.isObjectLike = s'.isObjectLike := by
  cases reordered with
  | malformed reason => rfl
  | keywords rel => exact rel.isObjectLike_eq

/-- Both schemas constrain which names are required and nothing else, or neither does. -/
theorem isConstraint_eq (reordered : s.Reordered s') : s.isConstraint = s'.isConstraint := by
  cases reordered with
  | malformed reason => rfl
  | @keywords k k' rel =>
      show (k.ref.isNone && k.isRequiredOnly) = (k'.ref.isNone && k'.isRequiredOnly)
      rw [rel.ref_eq, rel.isRequiredOnly_eq]

/-- Both schemas admit null, or neither does. -/
theorem admitsNull_eq (reordered : s.Reordered s') : s.admitsNull = s'.admitsNull := by
  cases reordered with
  | malformed reason => rfl
  | @keywords k k' rel =>
      show (k.ref.isNone && (k.nullable == some true || k.listsNull)) =
        (k'.ref.isNone && (k'.nullable == some true || k'.listsNull))
      rw [rel.ref_eq, rel.nullable_eq, rel.listsNull_eq]

theorem description_eq (reordered : s.Reordered s') : s.description = s'.description := by
  cases reordered with
  | malformed reason => rfl
  | keywords rel => exact rel.description_eq

end Schema.Reordered

/-! ## Forms in another order -/

/-- What several schemas say about objects together, in another order. -/
structure Merged.Reordered (m m' : Merged) : Prop where
  /-- The properties agree. -/
  properties : OrderedMap.Agree Schema.Reordered m.properties m'.properties
  /-- The same names are required. -/
  required : SameNames m.required m'.required
  /-- The same is said about further members. -/
  additional : Option.Rel (Additional.Rel Schema.Reordered) m.additional m'.additional

/-- Requiring names one after another, each once, requires what was required and these names. What
is said about membership forgets the order in which a merge meets them. -/
theorem mem_foldl_required {name : String} {names required : List String} :
    name ∈ names.foldl (fun ns n => if n ∈ ns then ns else ns ++ [n]) required ↔
      name ∈ required ∨ name ∈ names := by
  induction names generalizing required with
  | nil => simp
  | cons first names ih =>
      rw [List.foldl_cons, ih]
      split
      · rename_i present
        constructor
        · rintro (old | new)
          · exact .inl old
          · exact .inr (List.mem_cons_of_mem _ new)
        · rintro (old | new)
          · exact .inl old
          · rcases List.mem_cons.mp new with rfl | new
            · exact .inl present
            · exact .inr new
      · rw [List.mem_append, List.mem_singleton, List.mem_cons, or_assoc]

namespace Keywords.Rel

variable {k k' : Keywords Schema}

/-- The properties agree where none are listed: no properties agree with none. -/
theorem getD_properties (rel : Keywords.Rel Schema.Reordered k k') :
    OrderedMap.Agree Schema.Reordered (k.properties.getD []) (k'.properties.getD []) := by
  obtain ⟨listed, _, _, _, _, _, _⟩ := rel
  cases listed with
  | none => exact .nil
  | some agree => exact agree

/-- The same names are required where none are listed. -/
theorem getD_required (rel : Keywords.Rel Schema.Reordered k k') :
    SameNames (k.required.getD []) (k'.required.getD []) := by
  obtain ⟨_, names, _, _, _, _, _⟩ := rel
  cases names with
  | none => exact fun name => Iff.rfl
  | some same => exact same

end Keywords.Rel

/-- A merge takes up a further part. Properties are inserted one by one, so the order of the part
shows in the order of the merge and in nothing else. -/
theorem Merged.Reordered.add {m m' : Merged} {s s' : Schema} (merged : m.Reordered m')
    (reordered : s.Reordered s') : (m.add s).Reordered (m'.add s') := by
  cases reordered with
  | malformed reason => exact merged
  | keywords rel =>
      refine ⟨merged.properties.insertAll rel.getD_properties, fun name => ?_,
        rel.additional.or merged.additional⟩
      show name ∈ List.foldl _ _ _ ↔ name ∈ List.foldl _ _ _
      rw [mem_foldl_required, mem_foldl_required, merged.required name, rel.getD_required name]

/-- Parts in another order inside are merged to the same properties in another order. -/
theorem Merged.Reordered.ofParts {parts parts' : List Schema}
    (rel : List.Forall₂ Schema.Reordered parts parts') :
    (Merged.ofParts parts).Reordered (Merged.ofParts parts') := by
  have start : Merged.Reordered ⟨0, [], [], none⟩ ⟨0, [], [], none⟩ :=
    ⟨.nil, fun name => Iff.rfl, .none⟩
  exact List.rel_foldl (fun _ _ merged _ _ reordered => merged.add reordered) start rel

namespace Keywords.Rel

variable {k k' : Keywords Schema}

/-- Objects with properties in another order. -/
theorem objects (rel : Keywords.Rel Schema.Reordered k k') : k.objects.Reordered k'.objects :=
  .object rel.getD_properties rel.getD_required rel.additional

/-- The form of one type among several. -/
theorem named (rel : Keywords.Rel Schema.Reordered k k') (name : String) :
    (k.named name).Reordered (k'.named name) := by
  unfold Keywords.named
  split
  · exact rel.objects
  · exact .array rel.items
  · rw [rel.format_eq]
    exact .same _

/-- The form of the type of reordered keywords, below every keyword that combines schemas. -/
theorem typeForm (rel : Keywords.Rel Schema.Reordered k k') :
    k.typeForm.Reordered k'.typeForm := by
  unfold Keywords.typeForm
  rw [rel.isObjectLike_eq, rel.hasType_eq, rel.isRequiredOnly_eq, rel.type_eq]
  split
  · exact .typed rel.objects
  split
  · exact .typed (.array rel.items)
  split
  · exact .typed (.object .nil rel.getD_required .none)
  split
  · rw [rel.format_eq]
    exact .same _
  · refine .oneOfTypes ?_
    exact List.forall₂_map_left_iff.mpr (List.forall₂_map_right_iff.mpr
      (List.forall₂_same.mpr fun name _ => rel.named name))
  · exact .same _

/-- The form of parts: one part, a merge or an intersection, and the same of the three for both. -/
theorem partsForm {parts parts' : List Schema}
    (rel : List.Forall₂ Schema.Reordered parts parts') :
    (Keywords.partsForm parts).Reordered (Keywords.partsForm parts') := by
  unfold Keywords.partsForm
  rw [rel.all_eq Schema.Reordered.isObjectLike_eq]
  split
  -- the merge inserts properties one by one, so it respects agreement and not equality
  · have merged := Merged.Reordered.ofParts rel
    exact .merged merged.properties merged.required merged.additional
  · cases rel with
    | nil => exact .same _
    | cons first rest =>
        cases rest with
        | nil => exact .only first
        | cons second rest => exact .intersection (.cons first (.cons second rest))

/-- The form of `allOf`, or of the type where it lists nothing. -/
theorem partsOrType (rel : Keywords.Rel Schema.Reordered k k') :
    k.partsOrType.Reordered k'.partsOrType := by
  have parts := rel.allOf
  unfold Keywords.partsOrType
  generalize k.allOf = listed, k'.allOf = listed' at parts ⊢
  cases parts with
  | none => exact rel.typeForm
  | some parts =>
      cases parts with
      | nil => exact rel.typeForm
      | cons first rest => exact partsForm (.cons first rest)

/-- The form of `anyOf`, or of what stands below it where it lists nothing or constraints alone. -/
theorem anyOfOrBelow (rel : Keywords.Rel Schema.Reordered k k') :
    k.anyOfOrBelow.Reordered k'.anyOfOrBelow := by
  have members := rel.anyOf
  unfold Keywords.anyOfOrBelow
  generalize k.anyOf = listed, k'.anyOf = listed' at members ⊢
  cases members with
  | none => exact rel.partsOrType
  | some members =>
      cases members with
      | nil => exact rel.partsOrType
      | cons first rest =>
          show Form.Reordered (if _ then _ else _) (if _ then _ else _)
          rw [rel.isObjectLike_eq,
            (List.Forall₂.cons first rest).all_eq Schema.Reordered.isConstraint_eq]
          -- both documents pass over the members, or neither does
          split
          · exact rel.partsOrType
          · exact .union "anyOf" (.cons first rest)

/-- The form of `oneOf`, or of what stands below it where it lists nothing. -/
theorem unionOrBelow (rel : Keywords.Rel Schema.Reordered k k') :
    k.unionOrBelow.Reordered k'.unionOrBelow := by
  have members := rel.oneOf
  unfold Keywords.unionOrBelow
  generalize k.oneOf = listed, k'.oneOf = listed' at members ⊢
  cases members with
  | none => exact rel.anyOfOrBelow
  | some members =>
      cases members with
      | nil => exact rel.anyOfOrBelow
      | cons first rest => exact .union "oneOf" (.cons first rest)

/-- The form of keywords that have no reference and do not ask for null alone. -/
theorem form (rel : Keywords.Rel Schema.Reordered k k') : k.form.Reordered k'.form := by
  unfold Keywords.form
  rw [rel.values_eq, rel.value_eq]
  split
  · exact .same _
  · split
    · exact .same _
    · exact rel.unionOrBelow

end Keywords.Rel

/-- **Reordered schemas ask for the same thing in another order.** -/
theorem Schema.Reordered.form {s s' : Schema} (reordered : s.Reordered s') :
    s.form.Reordered s'.form := by
  cases reordered with
  | malformed reason => exact .same _
  | keywords rel =>
      unfold Schema.form
      simp only [rel.ref_eq, rel.isNullOnly_eq]
      -- a reference and the type null look at no schema inside
      split
      · exact .same _
      · split
        · exact .same _
        · exact rel.withoutNull.form

/-! ## Outlines in canonical order -/

/-- Outlines of schemas in another order are the same after sorting. -/
def Schema.SameSorted (s : Schema) : Prop :=
  ∀ s', s.Reordered s' → s.outline.sorted = s'.outline.sorted

/-- Outlines of objects are the same after sorting: properties and required names are brought into
one order, and inner outlines are the same by assumption. -/
theorem sorted_outlineObject {properties properties' : OrderedMap Schema}
    {required required' : List String} {additional additional' : Option (Additional Schema)}
    (inner : ∀ s ∈ objectMembers properties additional, s.SameSorted)
    (relProperties : OrderedMap.Agree Schema.Reordered properties properties')
    (relRequired : SameNames required required')
    (relAdditional : Option.Rel (Additional.Rel Schema.Reordered) additional additional') :
    (outlineObject properties required additional).sorted =
      (outlineObject properties' required' additional').sorted := by
  have images : (properties.mapValues fun s => s.outline.sorted).sorted =
      (properties'.mapValues fun s => s.outline.sorted).sorted := by
    refine relProperties.sorted_mapValues_eq fun entry member s' reordered => ?_
    exact inner _ (List.mem_append_left _ (List.mem_map_of_mem member)) s' reordered
  have further : (outlineExtra additional).map Shape.sorted =
      (outlineExtra additional').map Shape.sorted := by
    cases relAdditional with
    | none => rfl
    | some related =>
        cases related with
        | flag allowed => rfl
        | schema values =>
            have related := inner _ (by simp [objectMembers, Additional.schema?]) _ values
            exact congrArg Extra.allowed related
  have names : Naming.ascending required = Naming.ascending required' :=
    Naming.ascending_eq_iff.mpr relRequired
  simp only [outlineObject, Shape.sorted_object, names, further]
  congr 1
  simpa [OrderedMap.mapValues, Function.comp_def] using images

/-- The step for the form of a type: sorted outlines pass from the schemas inside to it. -/
theorem TypeForm.sorted_outline {type type' : TypeForm} (inner : ∀ s ∈ type.members, s.SameSorted)
    (reordered : type.Reordered type') : type.outline.sorted = type'.outline.sorted := by
  cases reordered with
  | same => rfl
  | object relProperties relRequired relAdditional =>
      rw [outline_object, outline_object]
      exact sorted_outlineObject inner relProperties relRequired relAdditional
  | array relItems =>
      rw [outline_array, outline_array, Shape.sorted_array, Shape.sorted_array]
      cases relItems with
      | none => rfl
      | some rel => exact congrArg Shape.array (inner _ (List.mem_singleton_self _) _ rel)

/-- The step for forms: sorted outlines pass from the schemas inside a form to the form itself, one
case for each way in which a form can be in another order. -/
theorem Form.sorted_outline {form form' : Form} (inner : ∀ s ∈ form.members, s.SameSorted)
    (reordered : form.Reordered form') : form.outline.sorted = form'.outline.sorted := by
  cases reordered with
  | same => rfl
  | union keyword rel =>
      rw [outline_union, outline_union, Schema.sorted_unionOf, Schema.sorted_unionOf, List.map_map,
        List.map_map]
      exact congrArg _ (rel.map_eq inner)
  | only rel =>
      rw [outline_only, outline_only]
      exact inner _ (List.mem_singleton_self _) _ rel
  | intersection rel =>
      rw [outline_intersection, outline_intersection, Shape.sorted_intersection,
        Shape.sorted_intersection, List.map_map, List.map_map]
      exact congrArg _ (rel.map_eq inner)
  | merged relProperties relRequired relAdditional =>
      rw [outline_merged, outline_merged]
      exact sorted_outlineObject inner relProperties relRequired relAdditional
  | typed rel =>
      rw [outline_typed, outline_typed]
      exact TypeForm.sorted_outline inner rel
  | oneOfTypes rel =>
      rw [outline_oneOfTypes, outline_oneOfTypes, Shape.sorted_union, Shape.sorted_union,
        List.map_map, List.map_map]
      refine congrArg _ (rel.map_eq fun type listed type' related => ?_)
      exact TypeForm.sorted_outline
        (fun s member => inner s (List.mem_flatMap_of_mem listed member)) related

/-- **Reordered schemas have one canonical shape.** -/
theorem Schema.Reordered.outline_sorted {s s' : Schema} (reordered : s.Reordered s') :
    s.outline.sorted = s'.outline.sorted := by
  -- the induction is on the forms of one schema, so the other one stays universal
  suffices same : ∀ s : Schema, s.SameSorted from same s s' reordered
  intro s
  induction s using Schema.form_induction with
  | step s inner =>
      intro s' reordered
      have forms := Form.sorted_outline inner reordered.form
      rw [Schema.outline_eq, Schema.outline_eq, reordered.admitsNull_eq]
      split
      · rw [Shape.sorted_orNull, Shape.sorted_orNull, forms]
      · exact forms

end ClientGen
