import ClientGen.Api.Basic
import ClientGen.Document.Schema

/-!
# What a schema asks for

The keywords of a schema may ask for several things at once. They are weighed in a fixed order, and
what comes first wins:

1. values that are listed, one value,
2. one of several schemas, any of several schemas,
3. all of several schemas, which are one object if each of them describes objects,
4. objects, arrays, required names, and the named types.

* `Form` — what the winning keywords ask for; schemas inside are as they were.
* `Schema.form` — the form of a schema.
* `Schema.admitsNull` — whether null is admitted on top of the form.
* `Form.size_form_lt` — the schemas inside the form of a schema are smaller than the schema.

**Null.** The keyword `nullable` and the type name `null` say the same thing. They are looked at
first and do not take part in the weighing; only a schema whose type is nothing but null is the form
of null.
-/

namespace ClientGen

/-- What the name of a type asks for. -/
inductive TypeForm where
  /-- Objects. -/
  | object (properties : List (String × Schema)) (required : List String)
      (additional : Option (Additional Schema))
  /-- Arrays, with a schema for the items if there is one. -/
  | array (items : Option Schema)
  /-- A scalar. -/
  | primitive (type : Primitive)
  /-- Raw bytes. -/
  | binary
  /-- Nothing that is known. -/
  | unsupported
  deriving Inhabited

/-- **What a schema asks for.** -/
inductive Form where
  /-- It is no schema. -/
  | malformed (reason : String)
  /-- A model. -/
  | ref (name : String)
  /-- Null. -/
  | null
  /-- One of several values. -/
  | enumeration (values : List Json)
  /-- One value. -/
  | literal (value : Json)
  /-- One of the schemas of a keyword. -/
  | union (keyword : String) (members : List Schema)
  /-- A single schema of the keyword `allOf`. -/
  | only (part : Schema)
  /-- All schemas of the keyword `allOf`. -/
  | intersection (parts : List Schema)
  /-- Objects that several schemas describe together; so many of them contradict an earlier one. -/
  | merged (conflicts : Nat) (properties : List (String × Schema)) (required : List String)
      (additional : Option (Additional Schema))
  /-- What the type of the schema asks for. -/
  | typed (type : TypeForm)
  /-- What one of several types asks for. -/
  | oneOfTypes (types : List TypeForm)
  deriving Inhabited

namespace Keywords

variable {σ : Type}

/-- Whether the type is a single name. -/
def hasType (k : Keywords σ) (name : String) : Bool :=
  k.type == some (.single name)

/-- Whether further members are allowed explicitly. -/
def allowsMore (k : Keywords σ) : Bool :=
  match k.additional with
  | none => false
  | some (.flag b) => b
  | some (.schema _) => true

/-- **Whether a schema describes objects.** -/
def isObjectLike (k : Keywords σ) : Bool :=
  k.hasType "object" || k.properties.isSome || k.allowsMore

/-- Whether a keyword lists something. -/
def lists {α : Type} (keyword : Option (List α)) : Bool :=
  match keyword with
  | some (_ :: _) => true
  | _ => false

/-- **Whether a schema says nothing but that names are required.** -/
def isRequiredOnly (k : Keywords σ) : Bool :=
  lists k.required && k.type.isNone && k.properties.isNone && k.additional.isNone &&
    !lists k.oneOf && !lists k.anyOf && !lists k.allOf && !lists k.values

/-- The names of types other than null. -/
def typeNames (k : Keywords σ) : List String :=
  match k.type with
  | none => []
  | some (.single name) => [name]
  | some (.several names) => names.filter (· != "null")

/-- Whether null is one of several types. -/
def listsNull (k : Keywords σ) : Bool :=
  match k.type with
  | some (.several names) => names.contains "null"
  | _ => false

/-- Whether the type is null and nothing else. -/
def isNullOnly (k : Keywords σ) : Bool :=
  k.hasType "null" || (k.listsNull && k.typeNames.isEmpty)

/-- **The keywords without null**: a single type that is left counts as a single type. -/
def withoutNull (k : Keywords σ) : Keywords σ :=
  match k.type with
  | some (.several _) =>
    { k with
      type := match k.typeNames with
        | [] => none
        | [name] => some (.single name)
        | names => some (.several names) }
  | _ => k

end Keywords

namespace Schema

/-- The keywords of a schema, if it has any. -/
def keywords? : Schema → Option (Keywords Schema)
  | .malformed _ => none
  | .keywords k => some k

/-- The description of a schema. -/
def description (s : Schema) : Option String :=
  s.keywords?.bind (·.description)

/-- Whether a schema describes objects. -/
def isObjectLike (s : Schema) : Bool :=
  s.keywords?.any (·.isObjectLike)

/-- Whether a schema says nothing but that names are required. -/
def isRequiredOnly (s : Schema) : Bool :=
  s.keywords?.any (·.isRequiredOnly)

/-- Whether a schema constrains only which names are required, and refers to no model. -/
def isConstraint (s : Schema) : Bool :=
  s.keywords?.any fun k => k.ref.isNone && k.isRequiredOnly

/-- **Whether null is admitted on top of the form of a schema.** -/
def admitsNull (s : Schema) : Bool :=
  s.keywords?.any fun k => k.ref.isNone && (k.nullable == some true || k.listsNull)

/-- The name that a reference ends with. -/
def refName (reference : String) : String :=
  String.ofList (reference.toList.reverse.takeWhile (· != '/')).reverse

end Schema

/-- A scalar type with a format. -/
def TypeForm.scalar (name : String) (format : Option String) : TypeForm :=
  match name with
  | "string" => if format = some "binary" then .binary else .primitive .string
  | "number" => .primitive .number
  | "integer" => .primitive .integer
  | "boolean" => .primitive .boolean
  | _ => .unsupported

namespace Keywords

/-- The objects that keywords describe. -/
def objects (k : Keywords Schema) : TypeForm :=
  .object (k.properties.getD []) (k.required.getD []) k.additional

/-- What the name of a type asks for, beside the other keywords. -/
def named (k : Keywords Schema) (name : String) : TypeForm :=
  match name with
  | "object" => k.objects
  | "array" => .array k.items
  | name => .scalar name k.format

/-- What the types of a schema ask for. -/
def typeForm (k : Keywords Schema) : Form :=
  if k.isObjectLike then .typed k.objects
  else if k.hasType "array" then .typed (.array k.items)
  else if k.isRequiredOnly then .typed (.object [] (k.required.getD []) none)
  else match k.type with
    | some (.single name) => .typed (.scalar name k.format)
    | some (.several (name :: names)) => .oneOfTypes ((name :: names).map k.named)
    | _ => .typed .unsupported

end Keywords

/-- What several schemas say about objects together. -/
structure Merged where
  /-- How many of them contradict an earlier one. -/
  conflicts : Nat
  /-- The properties, the last schema of each. -/
  properties : List (String × Schema)
  /-- The required names. -/
  required : List String
  /-- What the last of them says about further members. -/
  additional : Option (Additional Schema)
  deriving Inhabited

namespace Merged

/-- Whether two explicit statements about further members differ. -/
def differ (earlier later : Option (Additional Schema)) : Bool :=
  earlier.isSome && later.isSome && !Schema.sameAdditional earlier later

/-- A further schema. -/
def add (m : Merged) (s : Schema) : Merged :=
  match s with
  | .malformed _ => m
  | .keywords k =>
    { conflicts := m.conflicts + if differ m.additional k.additional then 1 else 0
      properties := OrderedMap.insertAll m.properties (k.properties.getD [])
      required :=
        (k.required.getD []).foldl (fun ns n => if n ∈ ns then ns else ns ++ [n]) m.required
      additional := k.additional.or m.additional }

/-- **What several schemas say about objects together.** -/
def ofParts (parts : List Schema) : Merged :=
  parts.foldl add ⟨0, [], [], none⟩

/-- The form of objects that several schemas describe. -/
def form (m : Merged) : Form :=
  .merged m.conflicts m.properties m.required m.additional

end Merged

namespace Keywords

/-- What the parts of the keyword `allOf` ask for. -/
def partsForm (parts : List Schema) : Form :=
  if parts.all Schema.isObjectLike then (Merged.ofParts parts).form
  else match parts with
    | [part] => .only part
    | parts => .intersection parts

/-- What is asked for beside values and unions. -/
def partsOrType (k : Keywords Schema) : Form :=
  match k.allOf with
  | some (s :: ss) => partsForm (s :: ss)
  | _ => k.typeForm

/-- What is asked for beside values and the keyword `oneOf`. -/
def anyOfOrBelow (k : Keywords Schema) : Form :=
  match k.anyOf with
  | some (s :: ss) =>
    if k.isObjectLike && (s :: ss).all Schema.isConstraint then k.partsOrType
    else .union "anyOf" (s :: ss)
  | _ => k.partsOrType

/-- What is asked for beside values. -/
def unionOrBelow (k : Keywords Schema) : Form :=
  match k.oneOf with
  | some (s :: ss) => .union "oneOf" (s :: ss)
  | _ => k.anyOfOrBelow

/-- What keywords without null ask for. -/
def form (k : Keywords Schema) : Form :=
  match k.values with
  | some (v :: vs) => .enumeration (v :: vs)
  | _ =>
    match k.value with
    | some v => .literal v
    | none => k.unionOrBelow

end Keywords

/-- **What a schema asks for.** -/
def Schema.form : Schema → Form
  | .malformed reason => .malformed reason
  | .keywords k =>
    match k.ref with
    | some reference => .ref (Naming.pascalCase (refName reference))
    | none => if k.isNullOnly then .null else k.withoutNull.form

/-! ## Sizes -/

/-- The size of the schemas inside a form of a type. -/
noncomputable def TypeForm.size : TypeForm → Nat
  | .object properties _ additional => sizeOf properties + sizeOf additional
  | .array items => sizeOf items
  | _ => 0

/-- The size of the schemas inside a form. -/
noncomputable def Form.size : Form → Nat
  | .union _ members => sizeOf members
  | .only part => sizeOf part
  | .intersection parts => sizeOf parts
  | .merged _ properties _ additional => sizeOf properties + sizeOf additional
  | .typed type => type.size
  | .oneOfTypes types => (types.map TypeForm.size).foldr max 0
  | _ => 0

/-- Inserting an entry makes a map larger by no more than one entry more would. -/
theorem sizeOf_insert_le (m : List (String × Schema)) (k : String) (v : Schema) :
    sizeOf (OrderedMap.insert m k v) ≤ sizeOf m + (1 + sizeOf (k, v)) := by
  induction m with
  | nil =>
    simp only [OrderedMap.insert, List.cons.sizeOf_spec, List.nil.sizeOf_spec]
    omega
  | cons e m ih =>
    obtain ⟨k', v'⟩ := e
    unfold OrderedMap.insert
    split
    · simp
      omega
    · simp at ih ⊢
      omega

/-- Inserting the entries of a map makes a map larger by no more than them. -/
theorem sizeOf_insertAll_le (m es : List (String × Schema)) :
    sizeOf (OrderedMap.insertAll m es) ≤ sizeOf m + sizeOf es := by
  induction es generalizing m with
  | nil => simp [OrderedMap.insertAll]
  | cons e es ih =>
    obtain ⟨k, v⟩ := e
    have h₁ := ih (OrderedMap.insert m k v)
    have h₂ := sizeOf_insert_le m k v
    simp only [OrderedMap.insertAll, List.foldl_cons, List.cons.sizeOf_spec] at h₁ ⊢
    omega

namespace Merged

/-- The size of the schemas in what several schemas say. -/
noncomputable def size (m : Merged) : Nat :=
  sizeOf m.properties + sizeOf m.additional

/-- A merge grows by no more than the part that it takes up. -/
theorem size_add_le (m : Merged) (s : Schema) : (m.add s).size ≤ m.size + sizeOf s := by
  cases s with
  | malformed reason => simp [add]
  | keywords k =>
    have h₁ := sizeOf_insertAll_le m.properties (k.properties.getD [])
    have h₂ : sizeOf (k.properties.getD []) ≤ sizeOf k.properties := by
      cases k.properties <;> simp
    have h₃ : sizeOf (k.additional.or m.additional) ≤
        sizeOf k.additional + sizeOf m.additional := by
      cases k.additional <;> simp
    have h₄ : 1 + sizeOf k.properties + sizeOf k.additional ≤ sizeOf k := by
      cases k
      simp
      omega
    simp only [size, add, Schema.keywords.sizeOf_spec] at h₁ ⊢
    omega

theorem size_foldl_add_le (parts : List Schema) (m : Merged) :
    (parts.foldl add m).size + 1 ≤ m.size + sizeOf parts := by
  induction parts generalizing m with
  | nil => simp
  | cons s parts ih =>
    have h₁ := ih (m.add s)
    have h₂ := size_add_le m s
    simp only [List.foldl_cons, List.cons.sizeOf_spec]
    omega

/-- The form of merged parts is larger than the parts by no more than one. -/
theorem size_form_ofParts_le (parts : List Schema) :
    (ofParts parts).form.size ≤ sizeOf parts + 1 := by
  have h := size_foldl_add_le parts ⟨0, [], [], none⟩
  simp only [size] at h
  simp only [ofParts, form, Form.size]
  simp at h
  omega

end Merged

namespace Keywords

/-- The size of the schemas inside keywords. -/
noncomputable def size (k : Keywords Schema) : Nat :=
  sizeOf k.properties + sizeOf k.items + sizeOf k.anyOf + sizeOf k.oneOf + sizeOf k.allOf +
    sizeOf k.additional

/-- Keywords are larger than what the schemas in them add up to. -/
theorem size_lt_sizeOf (k : Keywords Schema) : k.size < sizeOf k := by
  cases k
  simp [size]
  omega

/-- Taking null out of the type leaves the schemas inside. -/
@[simp] theorem size_withoutNull (k : Keywords Schema) : k.withoutNull.size = k.size := by
  unfold withoutNull
  split <;> rfl

theorem two_le_size (k : Keywords Schema) : 2 ≤ k.size := by
  have h₁ : 1 ≤ sizeOf k.properties := by cases k.properties <;> simp
  have h₂ : 1 ≤ sizeOf k.items := by cases k.items <;> simp
  simp only [size]
  omega

theorem size_objects_le (k : Keywords Schema) : k.objects.size ≤ k.size := by
  have h : sizeOf (k.properties.getD []) ≤ sizeOf k.properties := by
    cases k.properties <;> simp
  simp only [objects, TypeForm.size, size]
  omega

theorem size_array_le (k : Keywords Schema) : (TypeForm.array k.items).size ≤ k.size := by
  simp only [TypeForm.size, size]
  omega

theorem size_scalar (name : String) (format : Option String) :
    (TypeForm.scalar name format).size = 0 := by
  unfold TypeForm.scalar
  split <;> try split
  all_goals rfl

/-- The form of one type is no larger than the keywords, whatever the type is. -/
theorem size_named_le (k : Keywords Schema) (name : String) : (k.named name).size ≤ k.size := by
  unfold named
  split
  · exact size_objects_le k
  · exact size_array_le k
  · rw [size_scalar]
    omega

/-- The largest of several types counts, since the keywords are looked at once for each. -/
theorem size_namedAll_le (k : Keywords Schema) (names : List String) :
    ((names.map k.named).map TypeForm.size).foldr max 0 ≤ k.size := by
  induction names with
  | nil => simp
  | cons name names ih =>
    have := size_named_le k name
    simp only [List.map_cons, List.foldr_cons]
    omega

/-- The form of the type takes its schemas from the keywords. -/
theorem size_typeForm_le (k : Keywords Schema) : k.typeForm.size ≤ k.size := by
  have h := two_le_size k
  unfold typeForm
  split
  · exact size_objects_le k
  split
  · exact size_array_le k
  split
  · simpa [Form.size, TypeForm.size] using h
  split
  · simp only [Form.size, size_scalar]
    omega
  · exact size_namedAll_le k _
  · simp [Form.size, TypeForm.size]

/-- Parts that are merged, kept apart or alone: their form is larger than their list by no more than
one. -/
theorem size_partsForm_le (parts : List Schema) : (partsForm parts).size ≤ sizeOf parts + 1 := by
  unfold partsForm
  split
  · exact Merged.size_form_ofParts_le parts
  split
  · simp [Form.size]
    omega
  · simp [Form.size]

theorem size_partsOrType_le (k : Keywords Schema) : k.partsOrType.size ≤ k.size := by
  unfold partsOrType
  split
  · rename_i s ss h
    have := size_partsForm_le (s :: ss)
    simp only [size, h, Option.some.sizeOf_spec]
    omega
  · exact size_typeForm_le k

theorem size_anyOfOrBelow_le (k : Keywords Schema) : k.anyOfOrBelow.size ≤ k.size := by
  unfold anyOfOrBelow
  split
  · rename_i s ss h
    split
    · exact size_partsOrType_le k
    · simp only [size, h, Option.some.sizeOf_spec, Form.size]
      omega
  · exact size_partsOrType_le k

theorem size_unionOrBelow_le (k : Keywords Schema) : k.unionOrBelow.size ≤ k.size := by
  unfold unionOrBelow
  split
  · rename_i s ss h
    simp only [size, h, Option.some.sizeOf_spec, Form.size]
    omega
  · exact size_anyOfOrBelow_le k

/-- Whatever wins is no larger than the keywords. -/
theorem size_form_le (k : Keywords Schema) : k.form.size ≤ k.size := by
  unfold form
  split
  · simp [Form.size]
  split
  · simp [Form.size]
  · exact size_unionOrBelow_le k

end Keywords

/-- **The schemas inside the form of a schema are smaller than the schema.** -/
theorem Form.size_form_lt (s : Schema) : s.form.size < sizeOf s := by
  cases s with
  | malformed reason =>
    simp only [Schema.form, Form.size, Schema.malformed.sizeOf_spec]
    omega
  | keywords k =>
    have h₁ := Keywords.size_form_le k.withoutNull
    have h₂ := Keywords.size_lt_sizeOf k
    rw [Keywords.size_withoutNull] at h₁
    simp only [Schema.form, Schema.keywords.sizeOf_spec]
    split
    · simp only [Form.size]
      omega
    split
    · simp only [Form.size]
      omega
    · omega

end ClientGen
