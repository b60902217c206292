import ClientGen.Proofs.OrderedMap.Agreement
import ClientGen.Proofs.Schema.Outline

/-!
# Objects that several schemas describe

Where every schema of the keyword `allOf` describes objects, the schemas are merged into one. The
merge takes up what each of them says itself about properties, required names and further members,
and nothing else: neither what the enclosing schema says beside `allOf`, nor what a part says in an
`allOf` of its own. What is left out is left out without a note.

* `Merged.mem_keys_ofParts`, `Merged.exists_of_mem_ofParts`, `Merged.exists_of_additional_ofParts` —
  everything in a merge comes from a part.
* `Keywords.Merges` — the parts of a schema are merged.
* `Schema.Declares` — a schema declares a property, itself or in a part that describes objects.
* `Keywords.Merges.shape_eq_partsAlone` — the shape of a merge, and what is noted on the way to it.
-/

namespace ClientGen

/-! ## What is merged -/

namespace Schema

/-- The names of the properties that a schema lists itself. -/
def ownNames (s : Schema) : List String :=
  OrderedMap.keys ((s.keywords?.bind (·.properties)).getD [])

/-- **What a schema says itself about objects**: properties, required names and further members. -/
def flat : Schema → Schema
  | .malformed reason => .malformed reason
  | .keywords k => .keywords { Keywords.blank with
      type := some (.single "object")
      properties := k.properties
      required := k.required
      additional := k.additional }

end Schema

namespace Merged

/-- What holds after parts are merged held before or comes from one of the parts. -/
theorem exists_of_foldl_add {P : Merged → Prop} {Q : Schema → Prop}
    (step : ∀ m s, P (add m s) → P m ∨ Q s) {parts : List Schema} {m : Merged}
    (holds : P (parts.foldl add m)) : P m ∨ ∃ part ∈ parts, Q part := by
  induction parts generalizing m with
  | nil => exact .inl holds
  | cons part parts ih =>
      rcases ih holds with first | ⟨later, listed, inside⟩
      · rcases step m part first with before | here
        · exact .inl before
        · exact .inr ⟨part, List.mem_cons_self .., here⟩
      · exact .inr ⟨later, List.mem_cons_of_mem _ listed, inside⟩

/-- Every property of a merge is a property of a part. -/
theorem exists_of_mem_ofParts {parts : List Schema} {property : String × Schema}
    (member : property ∈ (ofParts parts).properties) :
    ∃ part ∈ parts, ∃ k, part = .keywords k ∧ property ∈ k.properties.getD [] := by
  refine (exists_of_foldl_add (P := fun m => property ∈ m.properties) ?_ member).resolve_left
    List.not_mem_nil
  intro m s inside
  cases s with
  | malformed reason => exact .inl inside
  | keywords k =>
      exact (OrderedMap.mem_of_mem_insertAll inside).imp_right fun listed => ⟨k, rfl, listed⟩

/-- What a merge says about further members is said by a part. -/
theorem exists_of_additional_ofParts {parts : List Schema} {additional : Additional Schema}
    (said : (ofParts parts).additional = some additional) :
    ∃ part ∈ parts, ∃ k, part = .keywords k ∧ k.additional = some additional := by
  refine (exists_of_foldl_add (P := fun m => m.additional = some additional) ?_ said).resolve_left
    (Option.some_ne_none _).symm
  intro m s inside
  cases s with
  | malformed reason => exact .inl inside
  | keywords k =>
      rcases Option.or_eq_some_iff.mp inside with last | ⟨-, earlier⟩
      · exact .inr ⟨k, rfl, last⟩
      · exact .inl earlier

theorem mem_keys_add {m : Merged} {s : Schema} {name : String} :
    name ∈ OrderedMap.keys (m.add s).properties ↔
      name ∈ OrderedMap.keys m.properties ∨ name ∈ s.ownNames := by
  cases s with
  | malformed reason => exact ⟨.inl, fun member => member.resolve_right List.not_mem_nil⟩
  | keywords k => exact OrderedMap.mem_keys_insertAll

/-- **The properties of a merge are those that the parts list themselves.** -/
theorem mem_keys_ofParts {parts : List Schema} {name : String} :
    name ∈ OrderedMap.keys (ofParts parts).properties ↔ ∃ part ∈ parts, name ∈ part.ownNames := by
  have fold (m : Merged) : name ∈ OrderedMap.keys (parts.foldl add m).properties ↔
      name ∈ OrderedMap.keys m.properties ∨ ∃ part ∈ parts, name ∈ part.ownNames := by
    induction parts generalizing m with
    | nil => simp
    | cons part parts ih =>
        rw [List.foldl_cons, ih, mem_keys_add, or_assoc, List.exists_mem_cons_iff]
  rw [ofParts, fold]
  exact or_iff_right List.not_mem_nil

/-- What the parts say beside what they say about objects does not count. -/
theorem ofParts_map_flat (parts : List Schema) : ofParts (parts.map Schema.flat) = ofParts parts := by
  have each (m : Merged) (s : Schema) : m.add s.flat = m.add s := by cases s <;> rfl
  simp only [ofParts, List.foldl_map, each]

end Merged

/-! ## Schemas whose parts are merged -/

namespace Keywords

/-- **The parts of a schema are merged**: every part describes objects, and no keyword that is
weighed before `allOf` says anything. -/
structure Merges (k : Keywords Schema) (parts : List Schema) : Prop where
  /-- There is no reference. -/
  ref : k.ref = none
  /-- The type is not null alone. -/
  notNull : k.isNullOnly = false
  /-- No values are listed. -/
  values : lists k.values = false
  /-- There is no single value. -/
  value : k.value = none
  /-- The keyword `oneOf` lists nothing. -/
  oneOf : lists k.oneOf = false
  /-- The keyword `anyOf` lists nothing. -/
  anyOf : lists k.anyOf = false
  /-- These are the parts. -/
  allOf : k.allOf = some parts
  /-- There are parts. -/
  nonempty : parts ≠ []
  /-- Each part describes objects. -/
  objects : ∀ part ∈ parts, part.isObjectLike

/-- The parts of a schema with what they say themselves, and whether null is admitted. -/
def partsAlone (k : Keywords Schema) (parts : List Schema) : Keywords Schema :=
  { Keywords.blank with
    allOf := some (parts.map Schema.flat)
    nullable := some (Schema.keywords k).admitsNull }

/-- Without values the unions are weighed. -/
theorem form_eq_unionOrBelow {k : Keywords Schema} (values : lists k.values = false)
    (value : k.value = none) : k.form = k.unionOrBelow := by
  unfold form
  split
  · rename_i listed
    simp [lists, listed] at values
  · rw [value]

/-- Without the keyword `oneOf` the keyword `anyOf` is weighed. -/
theorem unionOrBelow_eq_anyOfOrBelow {k : Keywords Schema} (oneOf : lists k.oneOf = false) :
    k.unionOrBelow = k.anyOfOrBelow := by
  unfold unionOrBelow
  split
  · rename_i listed
    simp [lists, listed] at oneOf
  · rfl

/-- Without values and unions the parts or the type are asked for. -/
theorem form_eq_partsOrType {k : Keywords Schema} (values : lists k.values = false)
    (value : k.value = none) (oneOf : lists k.oneOf = false) (anyOf : lists k.anyOf = false) :
    k.form = k.partsOrType := by
  rw [form_eq_unionOrBelow values value, unionOrBelow_eq_anyOfOrBelow oneOf, anyOfOrBelow]
  split
  · rename_i listed
    simp [lists, listed] at anyOf
  · rfl

theorem withoutNull_eq (k : Keywords Schema) : ∃ type, k.withoutNull = { k with type } := by
  unfold withoutNull
  split
  · exact ⟨_, rfl⟩
  · exact ⟨k.type, rfl⟩

/-- Keywords that refer to no model, and are not null alone, have the form that they have without
null. -/
theorem form_keywords {k : Keywords Schema} (ref : k.ref = none) (notNull : k.isNullOnly = false) :
    (Schema.keywords k).form = k.withoutNull.form := by
  simp only [Schema.form, ref, notNull, Bool.false_eq_true, if_false]

namespace Merges

variable {k : Keywords Schema} {parts : List Schema}

/-- **The form of a schema whose parts are merged** is that of the merge. -/
theorem form_eq (merges : k.Merges parts) :
    (Schema.keywords k).form = (Merged.ofParts parts).form := by
  obtain ⟨type, same⟩ := k.withoutNull_eq
  have weighed : k.withoutNull.form = k.withoutNull.partsOrType := by
    rw [same]
    exact form_eq_partsOrType merges.values merges.value merges.oneOf merges.anyOf
  have listed : k.withoutNull.allOf = some parts := by
    rw [same]
    exact merges.allOf
  have objects : parts.all Schema.isObjectLike = true := List.all_eq_true.mpr merges.objects
  rw [form_keywords merges.ref merges.notNull, weighed, partsOrType, listed]
  cases parts with
  | nil => exact absurd rfl merges.nonempty
  | cons part parts => exact if_pos objects

/-- The parts alone are merged as well. -/
theorem partsAlone (merges : k.Merges parts) :
    (k.partsAlone parts).Merges (parts.map Schema.flat) :=
  { ref := rfl
    notNull := rfl
    values := rfl
    value := rfl
    oneOf := rfl
    anyOf := rfl
    allOf := rfl
    nonempty := by simpa using merges.nonempty
    objects := by
      intro part member
      obtain ⟨s, listed, rfl⟩ := List.mem_map.mp member
      have likes := merges.objects s listed
      cases s with
      | malformed reason => cases likes
      | keywords k => rfl }

end Merges

end Keywords

/-- Schemas of one form have one shape and one list of notes if both admit null or none does. -/
theorem Schema.shape_congr {s s' : Schema} (form : s.form = s'.form)
    (null : s.admitsNull = s'.admitsNull) (place : Option String) :
    s.shape place = s'.shape place := by
  rw [shape, shape, form, null]

/-- A schema that does not admit null has the shape of its form. -/
theorem Schema.shape_of_form {s : Schema} {form : Form} (same : s.form = form)
    (null : s.admitsNull = false) (place : Option String) :
    s.shape place = formShape place form := by
  rw [shape, same, null]
  exact bind_pure _

/-- Keywords that refer to no model and say nothing of null have the shape of their form. -/
theorem Schema.shape_keywords {k : Keywords Schema} (ref : k.ref = none)
    (notNullable : k.nullable ≠ some true) (notNull : k.hasType "null" = false)
    (notListed : k.listsNull = false) (place : Option String) :
    (Schema.keywords k).shape place = formShape place k.withoutNull.form := by
  have alone : k.isNullOnly = false := by simp [Keywords.isNullOnly, notNull, notListed]
  refine shape_of_form (Keywords.form_keywords ref alone) ?_ place
  simp [admitsNull, keywords?, notNullable, notListed]

namespace Schema

/-- **A schema declares a property**: it lists it, or a part that describes objects declares it. -/
inductive Declares : Schema → String → Prop
  /-- The schema lists the property. -/
  | own {s : Schema} {name : String} (listed : name ∈ s.ownNames) : Declares s name
  /-- A part declares the property. -/
  | part {k : Keywords Schema} {part : Schema} {name : String} (listed : part ∈ k.allOf.getD [])
      (objects : part.isObjectLike) (declared : Declares part name) : Declares (.keywords k) name

end Schema

namespace Keywords.Merges

variable {k : Keywords Schema} {parts : List Schema}

/-- **What a merge keeps.** The shape is one of objects, and its properties are those that the parts
list themselves. Shape and notes are those of the parts alone: what is declared elsewhere is lost,
and nothing says so. -/
theorem shape_eq_partsAlone (merges : k.Merges parts) (place : Option String) :
    (∃ properties required extra,
      ((Schema.keywords k).shape place).value =
          (if (Schema.keywords k).admitsNull then
            .nullable (.object properties required extra)
          else .object properties required extra) ∧
        ∀ name, name ∈ OrderedMap.keys properties ↔ ∃ part ∈ parts, name ∈ part.ownNames) ∧
      (Schema.keywords k).shape place = (Schema.keywords (k.partsAlone parts)).shape place := by
  constructor
  · let merged := Merged.ofParts parts
    refine ⟨OrderedMap.mapValues Schema.outline merged.properties, merged.required,
      outlineExtra merged.additional, ?_, fun name => ?_⟩
    · rw [Schema.value_shape, Schema.outline_eq, merges.form_eq, Merged.form, Form.outline_merged]
      rfl
    · rw [OrderedMap.keys_mapValues, Merged.mem_keys_ofParts]
  · refine Schema.shape_congr ?_ ?_ place
    · rw [merges.form_eq, merges.partsAlone.form_eq, Merged.ofParts_map_flat]
    · simp [Keywords.partsAlone, Schema.admitsNull, Schema.keywords?, blank, listsNull]

/-- A property that is a string. -/
def stringProperty (name : String) : Option (List (String × Schema)) :=
  some [(name, .keywords { Keywords.blank with type := some (.single "string") })]

/-- A part with a property, and with another one in a part of its own. -/
def nestingPart : Schema :=
  .keywords { Keywords.blank with
    properties := stringProperty "inside"
    allOf := some [.keywords { Keywords.blank with properties := stringProperty "nested" }] }

/-- A schema with a property beside the keyword `allOf`. -/
def besideParts : Keywords Schema :=
  { Keywords.blank with properties := stringProperty "beside", allOf := some [nestingPart] }

theorem merges_besideParts : besideParts.Merges [nestingPart] :=
  { ref := rfl
    notNull := rfl
    values := rfl
    value := rfl
    oneOf := rfl
    anyOf := rfl
    allOf := rfl
    nonempty := List.cons_ne_nil _ _
    objects := by
      intro part member
      obtain rfl := List.mem_singleton.mp member
      rfl }

theorem shape_besideParts_eq_partsAlone : besideParts.Merges [nestingPart] ∧
    (∃ properties required extra,
      ((Schema.keywords besideParts).shape none).value =
          (if (Schema.keywords besideParts).admitsNull then
            .nullable (.object properties required extra)
          else .object properties required extra) ∧
        ∀ name, name ∈ OrderedMap.keys properties ↔
          ∃ part ∈ [nestingPart], name ∈ part.ownNames) ∧
      (Schema.keywords besideParts).shape none =
        (Schema.keywords (besideParts.partsAlone [nestingPart])).shape none :=
  ⟨merges_besideParts, shape_eq_partsAlone merges_besideParts none⟩

/-- The shape of the parts: the properties `beside` and `nested` are not in it. -/
theorem shape_besideParts : (Schema.keywords besideParts).shape none =
    ⟨.object [("inside", .primitive .string)] [] .unstated, []⟩ := by
  let property : Schema := .keywords { Keywords.blank with type := some (.single "string") }
  have inside (place : Option String) : property.shape place = ⟨.primitive .string, []⟩ := by
    have form : property.form = .typed (.primitive .string) := rfl
    rw [Schema.shape_of_form form rfl, Schema.formShape, Schema.typeShape]
    rfl
  have form : (Schema.keywords besideParts).form =
      .merged 0 [("inside", property)] [] none := merges_besideParts.form_eq
  rw [Schema.shape_of_form form rfl]
  simp only [Schema.formShape, Schema.conflicting, Schema.objectShape, Schema.propertyShapes,
    Schema.extraShape, inside]
  rfl

/-- **A declared property can be lost without a note.** -/
theorem not_declared_or_noted_besideParts : besideParts.Merges [nestingPart] ∧
    ¬ (((Schema.keywords besideParts).shape none).notes ≠ [] ∨
      ∃ properties required extra,
        (((Schema.keywords besideParts).shape none).value = .object properties required extra ∨
          ((Schema.keywords besideParts).shape none).value =
            .nullable (.object properties required extra)) ∧
        ∀ name, (Schema.keywords besideParts).Declares name →
          name ∈ OrderedMap.keys properties) := by
  refine ⟨merges_besideParts, ?_⟩
  have declared : (Schema.keywords besideParts).Declares "beside" :=
    .own (List.mem_singleton_self _)
  rw [shape_besideParts]
  rintro (noted | ⟨properties, required, extra, (shape | shape), kept⟩)
  · exact noted rfl
  · cases shape
    exact absurd (kept "beside" declared) (by decide)
  · cases shape

end Keywords.Merges

end ClientGen
