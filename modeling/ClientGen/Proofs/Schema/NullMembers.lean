import ClientGen.Proofs.Schema.Merging
import ClientGen.Proofs.Schema.Parts
import ClientGen.Proofs.Shape.Nodes

/-!
# Null among the members of a union

That a union admits null is said in two ways: by a member that is null alone, or with the keyword
`nullable` beside the members. Both ways end in one shape, the union of the other members with null
on top, and in the same notes but for their places.

* `UnionKeyword` — the keywords `oneOf` and `anyOf`, and when they decide what a schema asks for.
* `Schema.NullsInserted` — members, and the same members with members of null alone among them.
* `Schema.unplaced_shape` — what is noted on a schema depends on its place by the place alone.
* `Schema.shape_of_nulls_inserted` — members of null alone are the keyword `nullable`.

A member of null alone notes nothing and is no variant. It moves the members behind it by a
position, so the places of their notes differ, and nothing else does.
-/

namespace ClientGen

/-- A note without its place. -/
def Diagnostic.unplaced (d : Diagnostic) : Diagnostic :=
  { d with pointer := none }

/-! ## Notes without places -/

namespace Schema

/-- What is noted on a schema is the same at every place, but for the places. -/
def NotedAlike (s : Schema) : Prop :=
  ∀ place, (s.shape place).notes.map Diagnostic.unplaced = (s.shape none).notes

@[simp] theorem placeBelow_none (tokens : List String) : placeBelow none tokens = none := rfl

theorem unplaced_notesOf {parts : List (List String × Schema)}
    (alike : ∀ part ∈ parts, part.2.NotedAlike) (place : Option String) :
    (notesOf place parts).map Diagnostic.unplaced = notesOf none parts := by
  rw [notesOf, notesOf, List.map_flatMap]
  exact List.flatMap_congr fun part listed => alike part listed _

theorem unplaced_typeShape {type : TypeForm} (alike : ∀ part ∈ type.parts, part.2.NotedAlike)
    (place : Option String) :
    (typeShape place type).notes.map Diagnostic.unplaced = (typeShape none type).notes := by
  cases type with
  | object properties required additional =>
      simp only [typeShape, notes_objectShape]
      exact unplaced_notesOf alike place
  | array items =>
      cases items with
      | none => simp [typeShape]
      | some items =>
          have inner : items.NotedAlike := alike (["items"], items) (by simp [TypeForm.parts])
          simpa [typeShape] using inner _
  | primitive type => simp [typeShape]
  | binary => simp [typeShape]
  | unsupported =>
      rw [typeShape, typeShape]
      rfl

theorem unplaced_formShape {form : Form} (alike : ∀ part ∈ form.parts, part.2.NotedAlike)
    (place : Option String) :
    (formShape place form).notes.map Diagnostic.unplaced = (formShape none form).notes := by
  cases form with
  | malformed reason =>
      rw [formShape, formShape]
      rfl
  | ref name => simp [formShape]
  | null => simp [formShape]
  | enumeration values => simp [formShape]
  | literal value => simp [formShape]
  | union keyword members =>
      simp only [formShape, Noted.notes_bind, Noted.notes_pure, List.append_nil, notes_memberShapes]
      exact unplaced_notesOf alike place
  | only part =>
      have inner : part.NotedAlike := alike _ (List.mem_singleton_self _)
      simpa [formShape] using inner _
  | intersection parts =>
      simp only [formShape, Noted.notes_bind, Noted.notes_pure, List.append_nil, notes_memberShapes]
      exact unplaced_notesOf alike place
  | merged conflicts properties required additional =>
      have own : (conflicting place conflicts).notes.map Diagnostic.unplaced =
          (conflicting none conflicts).notes := by
        rw [notes_conflicting, notes_conflicting, List.map_replicate]
        rfl
      have inside := unplaced_notesOf alike place
      simp only [formShape, Noted.notes_bind, notes_objectShape, List.map_append]
      exact congrArg₂ (· ++ ·) own inside
  | typed type => simpa [formShape] using unplaced_typeShape alike place
  | oneOfTypes types =>
      have each : ∀ type ∈ types, (typeShape place type).notes.map Diagnostic.unplaced =
          (typeShape none type).notes := fun type listed =>
        unplaced_typeShape (fun part member => alike part (List.mem_flatMap_of_mem listed member))
          place
      simpa [formShape, List.map_flatMap] using List.flatMap_congr each

/-- **What is noted on a schema depends on its place by the place alone.** -/
theorem unplaced_shape (s : Schema) (place : Option String) :
    (s.shape place).notes.map Diagnostic.unplaced = (s.shape none).notes := by
  suffices s.NotedAlike from this place
  induction s using form_induction with
  | step s inner =>
      intro place
      have parts : ∀ part ∈ s.form.parts, part.2.NotedAlike := fun part listed =>
        inner part.2 (s.form.map_snd_parts ▸ List.mem_map_of_mem listed)
      simpa [shape] using unplaced_formShape parts place

/-- Neither the keyword nor the positions of members matter for what is noted on them. -/
theorem unplaced_memberShapes (place : Option String) (keyword : String) (position : Nat)
    (members : List Schema) :
    (memberShapes place keyword position members).notes.map Diagnostic.unplaced =
      members.flatMap fun s => (s.shape none).notes := by
  induction members generalizing position with
  | nil => simp [memberShapes]
  | cons s members ih => simp [memberShapes, unplaced_shape, ih]

end Schema

/-! ## Members of null alone -/

namespace Schema

/-- **A schema of null alone**: null is its only type. -/
def IsNull (s : Schema) : Prop :=
  s.form = .null

/-- **Members with members of null alone among them**, any number at any positions. -/
inductive NullsInserted : List Schema → List Schema → Prop
  /-- No member. -/
  | nil : NullsInserted [] []
  /-- A member stays. -/
  | member {members members' : List Schema} (s : Schema) (rest : NullsInserted members members') :
      NullsInserted (s :: members) (s :: members')
  /-- A member of null alone is inserted. -/
  | null {members members' : List Schema} {s : Schema} (alone : s.IsNull)
      (rest : NullsInserted members members') : NullsInserted members (s :: members')

variable {members members' : List Schema}

/-- A schema of null alone has no other shape, and nothing is noted on it. -/
theorem shape_of_isNull {s : Schema} (alone : s.IsNull) (place : Option String) :
    s.shape place = pure .null := by
  have form : s.form = .null := alone
  rw [shape, form]
  cases s.admitsNull <;> simp [formShape, Shape.orNull, Shape.null]

namespace NullsInserted

/-- Nothing is noted on what is inserted. -/
theorem flatMap_notes (inserted : NullsInserted members members') :
    (members'.flatMap fun s => (s.shape none).notes) =
      members.flatMap fun s => (s.shape none).notes := by
  induction inserted with
  | nil => rfl
  | member s rest ih => rw [List.flatMap_cons, List.flatMap_cons, ih]
  | null alone rest ih =>
      rw [List.flatMap_cons, ih, shape_of_isNull alone]
      rfl

/-- The variants that are not null are those without what is inserted. -/
theorem filter_outline (inserted : NullsInserted members members')
    (nonnull : ∀ s ∈ members, s.outline ≠ .null) :
    (members'.map outline).filter (!·.isNull) = members.map outline := by
  induction inserted with
  | nil => rfl
  | member s rest ih =>
      have here := mt Shape.isNull_iff.mp (nonnull s (List.mem_cons_self ..))
      have later := ih fun t listed => nonnull t (List.mem_cons_of_mem _ listed)
      rw [List.map_cons, List.filter_cons_of_pos (by simpa using here), later, List.map_cons]
  | null alone rest ih =>
      have null : outline _ = .null := congrArg Noted.value (shape_of_isNull alone none)
      rw [List.map_cons, List.filter_cons_of_neg (by rw [null]; decide), ih nonnull]

end NullsInserted

/-- A union without null is a union of its members. -/
theorem unionOf_of_nonnull {shapes : List Shape} (nonnull : ∀ shape ∈ shapes, shape ≠ .null) :
    unionOf shapes = .union shapes := by
  have all : shapes.filter (!·.isNull) = shapes := by
    refine List.filter_eq_self.mpr fun shape listed => ?_
    simpa using mt Shape.isNull_iff.mp (nonnull shape listed)
  rw [unionOf, all, if_pos rfl]

/-- A union with null has at least two variants left, and null on top of them. -/
theorem unionOf_of_null {shapes : List Shape} (several : 2 ≤ (shapes.filter (!·.isNull)).length)
    (null : (shapes.filter (!·.isNull)).length < shapes.length) :
    unionOf shapes = .nullable (.union (shapes.filter (!·.isNull))) := by
  obtain ⟨first, second, rest, left⟩ : ∃ first second rest,
      shapes.filter (!·.isNull) = first :: second :: rest := by
    match left : shapes.filter (!·.isNull) with
    | first :: second :: rest => exact ⟨first, second, rest, left⟩
    | [_] | [] => simp [left] at several
  rw [unionOf, if_neg (Nat.ne_of_lt null), left]
  rfl

end Schema

/-! ## The keywords of unions -/

namespace Keywords

variable {k : Keywords Schema} {first : Schema} {rest : List Schema}

/-- Whether objects are described without null is read off three keywords. -/
theorem isObjectLike_withoutNull_congr {k k' : Keywords Schema} (type : k.type = k'.type)
    (properties : k.properties = k'.properties) (additional : k.additional = k'.additional) :
    k.withoutNull.isObjectLike = k'.withoutNull.isObjectLike := by
  unfold withoutNull typeNames
  rw [type]
  split <;> simp [isObjectLike, hasType, allowsMore, type, properties, additional]

/-- The unions are weighed first if nothing is said that is weighed before them. -/
theorem form_of_valueless (ref : k.ref = none) (notNull : k.isNullOnly = false)
    (values : lists k.values = false) (value : k.value = none) :
    (Schema.keywords k).form = k.withoutNull.unionOrBelow := by
  obtain ⟨type, same⟩ := k.withoutNull_eq
  rw [form_keywords ref notNull, same]
  exact form_eq_unionOrBelow values value

/-- Members of `oneOf` are asked for if nothing is said that is weighed before them. -/
theorem form_oneOf (ref : k.ref = none) (notNull : k.isNullOnly = false)
    (values : lists k.values = false) (value : k.value = none)
    (listed : k.oneOf = some (first :: rest)) :
    (Schema.keywords k).form = .union "oneOf" (first :: rest) := by
  obtain ⟨type, same⟩ := k.withoutNull_eq
  have members : k.withoutNull.oneOf = some (first :: rest) := by rw [same, listed]
  rw [form_of_valueless ref notNull values value, unionOrBelow, members]

/-- Members of `anyOf` are asked for if nothing is said that is weighed before them, and objects are
not described. -/
theorem form_anyOf (ref : k.ref = none) (notNull : k.isNullOnly = false)
    (values : lists k.values = false) (value : k.value = none) (oneOf : lists k.oneOf = false)
    (objects : k.withoutNull.isObjectLike = false) (listed : k.anyOf = some (first :: rest)) :
    (Schema.keywords k).form = .union "anyOf" (first :: rest) := by
  obtain ⟨type, same⟩ := k.withoutNull_eq
  have members : k.withoutNull.anyOf = some (first :: rest) := by rw [same, listed]
  have unlisted : lists k.withoutNull.oneOf = false := by rw [same, oneOf]
  rw [form_of_valueless ref notNull values value, unionOrBelow_eq_anyOfOrBelow unlisted,
    anyOfOrBelow, members]
  simp [objects]

end Keywords

/-- **The keywords of unions.** -/
inductive UnionKeyword where
  /-- The keyword `oneOf`. -/
  | oneOf
  /-- The keyword `anyOf`. -/
  | anyOf

namespace UnionKeyword

/-- The name of a keyword. -/
def name : UnionKeyword → String
  | .oneOf => "oneOf"
  | .anyOf => "anyOf"

/-- **A schema with members under a keyword**, beside other keywords. -/
def schema (keyword : UnionKeyword) (beside : Keywords Schema) (members : List Schema)
    (nullable : Option Bool) : Schema :=
  match keyword with
  | .oneOf => .keywords { beside with oneOf := some members, nullable }
  | .anyOf => .keywords { beside with anyOf := some members, nullable }

/-- **A keyword decides what a schema asks for**: nothing that is weighed before it is said beside
it, and members of `anyOf` do not constrain objects. -/
structure Decides (keyword : UnionKeyword) (beside : Keywords Schema) : Prop where
  /-- There is no reference. -/
  ref : beside.ref = none
  /-- The type is not null alone. -/
  notNull : beside.isNullOnly = false
  /-- No values are listed. -/
  values : Keywords.lists beside.values = false
  /-- There is no single value. -/
  value : beside.value = none
  /-- The keyword `oneOf` lists nothing beside `anyOf`. -/
  oneOf : keyword = .anyOf → Keywords.lists beside.oneOf = false
  /-- The schema around `anyOf` does not describe objects. -/
  objects : keyword = .anyOf → beside.withoutNull.isObjectLike = false

variable {keyword : UnionKeyword} {beside : Keywords Schema} {members members' : List Schema}

/-- **A keyword that decides asks for a union.** -/
theorem Decides.form_eq (decides : keyword.Decides beside) (nonempty : members ≠ [])
    (nullable : Option Bool) :
    (keyword.schema beside members nullable).form = .union keyword.name members := by
  obtain ⟨first, rest, rfl⟩ := List.exists_cons_of_ne_nil nonempty
  cases keyword with
  | oneOf => exact Keywords.form_oneOf decides.ref decides.notNull decides.values decides.value rfl
  | anyOf =>
      have objects : { beside with anyOf := some (first :: rest), nullable : Keywords Schema
          }.withoutNull.isObjectLike = beside.withoutNull.isObjectLike :=
        Keywords.isObjectLike_withoutNull_congr rfl rfl rfl
      exact Keywords.form_anyOf decides.ref decides.notNull decides.values decides.value
        (decides.oneOf rfl) (objects.trans (decides.objects rfl)) rfl

theorem Decides.admitsNull_schema (decides : keyword.Decides beside) :
    (keyword.schema beside members (some true)).admitsNull := by
  cases keyword <;> simp [schema, Schema.admitsNull, Schema.keywords?, decides.ref]

end UnionKeyword

namespace Schema

variable {keyword : UnionKeyword} {beside : Keywords Schema} {members members' : List Schema}

/-- What is noted on a union is noted on its members. -/
theorem unplaced_union (decides : keyword.Decides beside) (nonempty : members ≠ [])
    (nullable : Option Bool) (place : Option String) :
    ((keyword.schema beside members nullable).shape place).notes.map Diagnostic.unplaced =
      members.flatMap fun s => (s.shape none).notes := by
  rw [shape, decides.form_eq nonempty]
  simpa [formShape] using unplaced_memberShapes place keyword.name 0 members

/-- With the keyword `nullable` a union of other members has null on top. -/
theorem outline_flagged (decides : keyword.Decides beside) (nonempty : members ≠ [])
    (nonnull : ∀ s ∈ members, s.outline ≠ .null) :
    (keyword.schema beside members (some true)).outline =
      .nullable (.union (members.map outline)) := by
  have kept : ∀ shape ∈ members.map outline, shape ≠ .null := by simpa using nonnull
  rw [outline_eq, if_pos decides.admitsNull_schema, decides.form_eq nonempty, Form.outline_union,
    unionOf_of_nonnull kept]
  rfl

/-- With members of null alone among them, several other members have null on top. -/
theorem outline_of_nulls_inserted (decides : keyword.Decides beside) (several : 2 ≤ members.length)
    (nonnull : ∀ s ∈ members, s.outline ≠ .null) (inserted : NullsInserted members members')
    (more : members.length < members'.length) (nullable : Option Bool) :
    (keyword.schema beside members' nullable).outline =
      .nullable (.union (members.map outline)) := by
  have nonempty : members' ≠ [] := List.ne_nil_of_length_pos (Nat.zero_lt_of_lt more)
  have left := inserted.filter_outline nonnull
  have union : unionOf (members'.map outline) = .nullable (.union (members.map outline)) := by
    rw [← left]
    exact unionOf_of_null (by simpa [left] using several) (by simpa [left] using more)
  rw [outline_eq, decides.form_eq nonempty, Form.outline_union, union]
  -- what has null on top already does not get it twice
  split <;> rfl

/-- **A member of null alone is the keyword `nullable`.** At least two members that are not null,
with members of null alone among them, have the same shape as without these and with the keyword:
the union of the members, in their order, and null. As much is noted in both cases, and the same but
for the places. -/
theorem shape_of_nulls_inserted (decides : keyword.Decides beside) (several : 2 ≤ members.length)
    (nonnull : ∀ s ∈ members, s.outline ≠ .null) (inserted : NullsInserted members members')
    (more : members.length < members'.length) (nullable : Option Bool) (place : Option String) :
    let listed := (keyword.schema beside members' nullable).shape place
    let flagged := (keyword.schema beside members (some true)).shape place
    listed.value = .nullable (.union (members.map outline)) ∧ listed.value = flagged.value ∧
      listed.notes.length = flagged.notes.length ∧
      listed.notes.map Diagnostic.unplaced = flagged.notes.map Diagnostic.unplaced := by
  intro listed flagged
  have nonempty : members ≠ [] := List.ne_nil_of_length_pos (Nat.zero_lt_of_lt several)
  have nonempty' : members' ≠ [] := List.ne_nil_of_length_pos (Nat.zero_lt_of_lt more)
  have shape : listed.value = .nullable (.union (members.map outline)) := by
    rw [value_shape, outline_of_nulls_inserted decides several nonnull inserted more]
  have same : flagged.value = .nullable (.union (members.map outline)) := by
    rw [value_shape, outline_flagged decides nonempty nonnull]
  have notes : listed.notes.map Diagnostic.unplaced = flagged.notes.map Diagnostic.unplaced := by
    rw [unplaced_union decides nonempty', unplaced_union decides nonempty, inserted.flatMap_notes]
  refine ⟨shape, shape.trans same.symm, ?_, notes⟩
  simpa using congrArg List.length notes

/-- The schema `{"type": "null"}`. -/
def nullNamed : Schema :=
  .keywords { Keywords.blank with type := some (.single "null") }

/-- The schema `{"type": ["null"]}`. -/
def nullListed : Schema :=
  .keywords { Keywords.blank with type := some (.several ["null"]) }

theorem isNull_nullNamed : nullNamed.IsNull := rfl

theorem isNull_nullListed : nullListed.IsNull := rfl

/-- The schema of a text or null. -/
def optionalText : Schema :=
  .keywords { Keywords.blank with type := some (.single "string"), nullable := some true }

theorem outline_optionalText : optionalText.outline = .nullable (.primitive .string) := by
  have form : optionalText.form = .typed (.primitive .string) := rfl
  rw [outline_eq, form, Form.outline_typed, TypeForm.outline_primitive]
  rfl

theorem outline_blank : (keywords .blank).outline = .unknown := by
  have form : (keywords .blank).form = .typed .unsupported := rfl
  rw [outline_eq, form, Form.outline_typed, TypeForm.outline_unsupported]
  rfl

/-- Both spellings of null among a text or null and a schema that cannot be expressed. -/
theorem shape_of_nulls_optionalText :
    let listed := (UnionKeyword.anyOf.schema .blank
      [nullListed, optionalText, nullNamed, keywords .blank] none).shape none
    let flagged := (UnionKeyword.anyOf.schema .blank
      [optionalText, keywords .blank] (some true)).shape none
    listed.value = .nullable (.union [.nullable (.primitive .string), .unknown]) ∧
      listed.value = flagged.value ∧ listed.notes.length = flagged.notes.length := by
  have decides : UnionKeyword.anyOf.Decides .blank :=
    { ref := rfl, notNull := rfl, values := rfl, value := rfl
      oneOf := fun _ => rfl, objects := fun _ => rfl }
  have nonnull : ∀ s ∈ [optionalText, keywords .blank], s.outline ≠ .null := by
    simp [outline_optionalText, outline_blank, Shape.null]
  have inserted : NullsInserted [optionalText, keywords .blank]
      [nullListed, optionalText, nullNamed, keywords .blank] :=
    .null isNull_nullListed (.member _ (.null isNull_nullNamed (.member _ .nil)))
  have several : 2 ≤ [optionalText, keywords .blank].length := Nat.le_refl 2
  obtain ⟨shape, same, count, -⟩ :=
    shape_of_nulls_inserted decides several nonnull inserted (by decide) none none
  refine ⟨?_, same, count⟩
  simpa [outline_optionalText, outline_blank] using shape

end Schema

end ClientGen
