import ClientGen.Proofs.OrderedMap.Entries
import ClientGen.Proofs.Schema.Loading
import ClientGen.Proofs.Schema.Merging

/-!
# Values in schemas

A schema may list the values that it admits, or give a single one. A list is taken over as it
stands, null included. A single value is taken over unless it is null: null counts as absence where
keywords are loaded, so a schema with the value null is the schema without it.

* `Keywords.ofMembers` — the keywords that members give, repeated names and all.
* `Keywords.Annotation` — what may be said beside values: a type other than null, a format and a
  description.
* `Schema.Accompanies` — the members that say such things.
* `Schema.values_exact` — what becomes of a single value and of a list of values.

Only look-ups by name decide what is loaded, so a member whose name stands nowhere else may stand
anywhere among the others: it sets its own keyword (`Keywords.ofMembers_const`,
`Keywords.ofMembers_enum`), and the weighing of the keywords then meets it first. Values are kept in
canonical form, as all values are that come from a text.
-/

namespace ClientGen

variable {before after : List (String × Json)} {v : Json} {vs : List Json}

/-! ## Keywords of objects -/

namespace Keywords

open OrderedMap (ofEntries mapValues lookup_ofEntries_middle)

variable {k : Keywords Schema} {ms ns : List (String × Json)}

/-- **The keywords that members give**, of which the last one with a name counts. -/
def ofMembers (ms : List (String × Json)) : Keywords Schema :=
  blank.withMembers (ofEntries (mapValues Json.canonical ms))

theorem withMembers_congr (same : ∀ name, ms.lookup name = ns.lookup name) :
    k.withMembers ms = k.withMembers ns := by
  simp only [withMembers, field, same]

/-- What is looked up beside a member whose name stands nowhere else. -/
theorem lookup_canonical_middle {name : String} (unsaid : ∀ m ∈ before ++ after, m.1 ≠ name)
    (other : String) :
    (ofEntries (mapValues Json.canonical (before ++ (name, v) :: after))).lookup other =
      if other = name then some v.canonical
      else (ofEntries (mapValues Json.canonical (before ++ after))).lookup other := by
  have images : mapValues Json.canonical (before ++ (name, v) :: after) =
      mapValues Json.canonical before ++ (name, v.canonical) :: mapValues Json.canonical after :=
    List.map_append
  have others : mapValues Json.canonical (before ++ after) =
      mapValues Json.canonical before ++ mapValues Json.canonical after := List.map_append
  have fresh : ∀ m ∈ mapValues Json.canonical (before ++ after), m.1 ≠ name := by
    intro m member
    obtain ⟨given, listed, rfl⟩ := List.mem_map.mp member
    exact unsaid given listed
  rw [others] at fresh ⊢
  rw [images, lookup_ofEntries_middle fresh]

/-- **A single value** sets its keyword, unless it is null. -/
theorem ofMembers_const (unsaid : ∀ m ∈ before ++ after, m.1 ≠ "const") :
    ofMembers (before ++ ("const", v) :: after) =
      { ofMembers (before ++ after) with value := v.canonical.given? } := by
  simp [ofMembers, withMembers, field, lookup_canonical_middle unsaid]

/-- **A list of values** sets its keyword. -/
theorem ofMembers_enum (unsaid : ∀ m ∈ before ++ after, m.1 ≠ "enum") :
    ofMembers (before ++ ("enum", .array vs) :: after) =
      { ofMembers (before ++ after) with values := some (vs.map Json.canonical) } := by
  simp [ofMembers, withMembers, field, lookup_canonical_middle unsaid, Json.canonical,
    Json.canonicalItems_eq_map, Json.items?]

end Keywords

/-! ## Schemas of objects -/

namespace Schema

open OrderedMap (distinct_ofEntries mapValues mem_of_mem_ofEntries sorted_perm)

/-- **An object whose members fit** loads as the keywords that they give. -/
theorem load_object {ms : List (String × Json)} (fit : ∀ m ∈ ms, Fits m.1 m.2.canonical) :
    load (.object ms) = .keywords (.ofMembers ms) := by
  let entries := OrderedMap.ofEntries (mapValues Json.canonical ms)
  have distinct : OrderedMap.Distinct entries := distinct_ofEntries _
  have form : (Json.object ms).canonical = .object entries.sorted := by
    rw [Json.canonical, Json.canonicalMembers_eq_mapValues]
  refine (load_eq_keywords_iff _ _).mpr ⟨entries.sorted, form, fun m member => .inr ?_, ?_⟩
  · have entry := mem_of_mem_ofEntries ((sorted_perm entries).mem_iff.mp member)
    obtain ⟨given, listed, rfl⟩ := List.mem_map.mp entry
    exact fit given listed
  · exact Keywords.withMembers_congr (distinct.lookup_perm (sorted_perm entries).symm)

/-- **A member that may stand beside a value.** -/
inductive Accompanies : String × Json → Prop
  /-- The name of one type other than null. -/
  | type {name : String} (other : name ≠ "null") : Accompanies ("type", .string name)
  /-- A list with the name of one type other than null. -/
  | types {name : String} (other : name ≠ "null") : Accompanies ("type", .ofStrings [name])
  /-- A format. -/
  | format (name : String) : Accompanies ("format", .string name)
  /-- A description. -/
  | description (text : String) : Accompanies ("description", .string text)

namespace Accompanies

variable {m : String × Json}

theorem canonical_eq (accompanies : Accompanies m) : m.2.canonical = m.2 := by
  cases accompanies <;> rfl

theorem fits (accompanies : Accompanies m) : Fits m.1 m.2.canonical := by
  rw [accompanies.canonical_eq]
  cases accompanies with
  | type other => exact .inl ⟨_, rfl⟩
  | types other => exact .inr ⟨_, rfl⟩
  | format name => exact ⟨_, rfl⟩
  | description text => exact ⟨_, rfl⟩

/-- The names of what accompanies a value. -/
theorem name_mem (accompanies : Accompanies m) : m.1 ∈ ["type", "format", "description"] := by
  cases accompanies <;> simp

/-- A type that accompanies a value is one name other than null. -/
theorem exists_typeNames (accompanies : Accompanies m) (type : m.1 = "type") :
    ∃ name, name ≠ "null" ∧
      (typeNames? m.2 = some (.single name) ∨ typeNames? m.2 = some (.several [name])) := by
  cases accompanies with
  | type other => exact ⟨_, other, .inl rfl⟩
  | types other => exact ⟨_, other, .inr rfl⟩
  | format name => exact absurd type (by decide : "format" ≠ "type")
  | description text => exact absurd type (by decide : "description" ≠ "type")

end Accompanies

/-- The shape of a type is never that of a single value. -/
theorem value_typeShape_ne_literal (place : Option String) (type : TypeForm) (v : Json) :
    (typeShape place type).value ≠ .literal v := by
  cases type with
  | object properties required additional => simp [typeShape, objectShape]
  | array items => cases items <;> simp [typeShape]
  | primitive type => simp [typeShape]
  | binary => simp [typeShape]
  | unsupported => simp [typeShape, unsupported]

end Schema

namespace Keywords

open OrderedMap (ofEntries mapValues mem_of_lookup mem_of_mem_ofEntries)

/-! ## What accompanies a value -/

/-- **What may be said beside values**: one type other than null, a format and a description. -/
structure Annotation where
  /-- The type. -/
  type : Option TypeNames
  /-- The format. -/
  format : Option String
  /-- The description. -/
  description : Option String
  /-- The type is one name, and not null. -/
  single : ∀ names, type = some names →
    ∃ name, name ≠ "null" ∧ (names = .single name ∨ names = .several [name])

/-- The keywords that say this beside values. -/
def Annotation.keywords (a : Annotation) (values : Option (List Json)) (value : Option Json) :
    Keywords Schema :=
  { blank with type := a.type, format := a.format, description := a.description, values, value }

variable {ms : List (String × Json)}

theorem accompanies_of_lookup (accompanied : ∀ m ∈ ms, Schema.Accompanies m) {name : String}
    {w : Json} (found : (ofEntries (mapValues Json.canonical ms)).lookup name = some w) :
    Schema.Accompanies (name, w) := by
  obtain ⟨m, listed, same⟩ := List.mem_map.mp (mem_of_mem_ofEntries (mem_of_lookup found))
  rw [(accompanied m listed).canonical_eq] at same
  exact same ▸ accompanied m listed

/-- **Members that accompany values** say what may be said beside values, and nothing else. -/
theorem exists_annotation (accompanied : ∀ m ∈ ms, Schema.Accompanies m) :
    ∃ a : Annotation, ofMembers ms = a.keywords none none := by
  have absent (name : String) (other : name ∉ ["type", "format", "description"]) :
      (ofEntries (mapValues Json.canonical ms)).lookup name = none := by
    refine Option.eq_none_iff_forall_ne_some.mpr fun w found => ?_
    exact other (accompanies_of_lookup accompanied found).name_mem
  refine ⟨⟨(ofMembers ms).type, (ofMembers ms).format, (ofMembers ms).description, ?_⟩, ?_⟩
  · intro names typed
    simp only [ofMembers, withMembers, field] at typed
    cases found : (ofEntries (mapValues Json.canonical ms)).lookup "type" with
    | none => simp [found, blank] at typed
    | some w =>
        rw [found] at typed
        obtain ⟨name, other, single | listed⟩ :=
          (accompanies_of_lookup accompanied found).exists_typeNames rfl
        · exact ⟨name, other, .inl (Option.some.inj (typed.symm.trans single))⟩
        · exact ⟨name, other, .inr (Option.some.inj (typed.symm.trans listed))⟩
  · simp (disch := decide) only [ofMembers, withMembers, field, absent]
    rfl

/-- A single type asks for what the type asks for. -/
theorem exists_typeForm {k : Keywords Schema} (single : ∀ names, k.type ≠ some (.several names)) :
    ∃ type, k.typeForm = .typed type := by
  rw [typeForm]
  by_cases objects : k.isObjectLike
  · exact ⟨_, if_pos objects⟩
  by_cases array : k.hasType "array"
  · exact ⟨_, (if_neg objects).trans (if_pos array)⟩
  by_cases required : k.isRequiredOnly
  · exact ⟨_, (if_neg objects).trans ((if_neg array).trans (if_pos required))⟩
  rw [if_neg objects, if_neg array, if_neg required]
  cases type : k.type with
  | none => exact ⟨_, rfl⟩
  | some names =>
      cases names with
      | single name => exact ⟨_, rfl⟩
      | several names => exact absurd type (single names)

namespace Annotation

variable (a : Annotation)

/-- **The shape beside annotations** is that of the values and of at most one type: there is no
reference, and null is neither the type nor admitted. -/
theorem exists_shape_eq (values : Option (List Json)) (value : Option Json)
    (place : Option String) : ∃ name : Option String,
      (Schema.keywords (a.keywords values value)).shape place =
        Schema.formShape place
          { a.keywords values value with type := name.map .single }.form := by
  have notNullable : (a.keywords values value).nullable ≠ some true :=
    (Option.some_ne_none true).symm
  obtain ⟨type, format, description, single⟩ := a
  cases type with
  | none => exact ⟨none, Schema.shape_keywords rfl notNullable rfl rfl place⟩
  | some names =>
      obtain ⟨name, other, rfl | rfl⟩ := single names rfl
      · refine ⟨some name, Schema.shape_keywords rfl notNullable ?_ rfl place⟩
        simpa [hasType, keywords] using other
      · refine ⟨some name, (Schema.shape_keywords rfl notNullable rfl ?_ place).trans ?_⟩
        · simpa [listsNull, keywords] using Ne.symm other
        · have left : [name].filter (· != "null") = [name] := by simpa using other
          simp only [withoutNull, typeNames, keywords, left]
          rfl

/-- **A single value** is the shape, and nothing is noted. -/
theorem shape_value (v : Json) (place : Option String) :
    (Schema.keywords (a.keywords none (some v))).shape place = pure (.literal v) := by
  obtain ⟨name, shape⟩ := a.exists_shape_eq none (some v) place
  rw [shape]
  simp [form, keywords, blank, Schema.formShape]

/-- **A list of values** is the shape, and nothing is noted. -/
theorem shape_values (nonempty : vs ≠ []) (place : Option String) :
    (Schema.keywords (a.keywords (some vs) none)).shape place = pure (.enumeration vs) := by
  obtain ⟨v, vs, rfl⟩ := List.exists_cons_of_ne_nil nonempty
  obtain ⟨name, shape⟩ := a.exists_shape_eq (some (v :: vs)) none place
  rw [shape]
  simp [form, keywords, blank, Schema.formShape]

/-- **Without values the shape is that of a type**, which is never a single value. -/
theorem value_shape_ne_literal (v : Json) (place : Option String) :
    ((Schema.keywords (a.keywords none none)).shape place).value ≠ .literal v := by
  obtain ⟨name, shape⟩ := a.exists_shape_eq none none place
  rw [shape, form_eq_partsOrType rfl rfl rfl rfl, partsOrType]
  obtain ⟨type, typed⟩ : ∃ type,
      typeForm { a.keywords none none with type := name.map .single } = .typed type := by
    refine exists_typeForm fun names => ?_
    cases name <;> simp
  show (Schema.formShape place (typeForm _)).value ≠ _
  rw [typed, Schema.formShape]
  exact Schema.value_typeShape_ne_literal place type v

end Annotation

end Keywords

/-! ## Values beside annotations -/

namespace Schema

/-- A value loads as a schema, whatever room there is beyond its depth. -/
def LoadsAs (v : Json) (s : Schema) : Prop :=
  ∀ room, Document.readSchema (⟨v.source, room + v.depth⟩ : Json.Cursor) = .ok s

theorem loadsAs_iff {s : Schema} : LoadsAs v s ↔ s = load v := by
  refine ⟨fun loads => ?_, fun same room => same ▸ readSchema_source v room⟩
  exact Except.ok.inj ((loads 0).symm.trans (readSchema_source v 0))

/-- A member whose name no annotation has is found nowhere among annotations. -/
theorem ne_of_accompanied {name : String} (accompanied : ∀ m ∈ before ++ after, Accompanies m)
    (other : name ∉ ["type", "format", "description"]) : ∀ m ∈ before ++ after, m.1 ≠ name := by
  rintro m member rfl
  exact other (accompanied m member).name_mem

/-- An object with a member beside annotations loads as its keywords if the member fits. -/
theorem load_middle {name : String} (accompanied : ∀ m ∈ before ++ after, Accompanies m)
    (fits : Fits name v.canonical) :
    load (.object (before ++ (name, v) :: after)) =
      .keywords (.ofMembers (before ++ (name, v) :: after)) := by
  obtain ⟨left, right⟩ := List.forall_mem_append.mp accompanied
  refine load_object (List.forall_mem_append.mpr ⟨?_, List.forall_mem_cons.mpr ⟨fits, ?_⟩⟩)
  · exact fun m member => (left m member).fits
  · exact fun m member => (right m member).fits

/-- **What is loaded beside annotations**: each keyword for values sets itself alone, and a single
value counts unless it is null. -/
theorem exists_load (accompanied : ∀ m ∈ before ++ after, Accompanies m) : ∃ a : Keywords.Annotation,
    load (.object (before ++ after)) = .keywords (a.keywords none none) ∧
      (∀ v, load (.object (before ++ ("const", v) :: after)) =
        .keywords (a.keywords none v.canonical.given?)) ∧
      ∀ vs, load (.object (before ++ ("enum", .array vs) :: after)) =
        .keywords (a.keywords (some (vs.map Json.canonical)) none) := by
  obtain ⟨a, annotations⟩ := Keywords.exists_annotation accompanied
  have unsaid : ∀ m ∈ before ++ after, m.1 ≠ "const" := ne_of_accompanied accompanied (by decide)
  have unlisted : ∀ m ∈ before ++ after, m.1 ≠ "enum" := ne_of_accompanied accompanied (by decide)
  refine ⟨a, ?_, fun v => ?_, fun vs => ?_⟩
  · rw [load_object fun m member => (accompanied m member).fits, annotations]
  · have fits : Fits "const" v.canonical := trivial
    rw [load_middle accompanied fits, Keywords.ofMembers_const unsaid, annotations]
    rfl
  · have fits : Fits "enum" (Json.array vs).canonical := ⟨_, rfl⟩
    rw [load_middle accompanied fits, Keywords.ofMembers_enum unlisted, annotations]
    rfl

/-- **What becomes of values beside annotations.** A single value becomes the shape of this value
iff it is not null, and then nothing is noted; with null the object loads as if the value were not
there. A list of values becomes the shape of these values, and nothing is noted. -/
theorem values_exact (accompanied : ∀ m ∈ before ++ after, Accompanies m) (v : Json)
    (nonempty : vs ≠ []) (place : Option String) :
    (∃ s, LoadsAs (.object (before ++ ("const", v) :: after)) s ∧
        (s.shape place = pure (.literal v.canonical) ↔ v ≠ .null) ∧
        (v = .null → LoadsAs (.object (before ++ after)) s)) ∧
      ∃ s, LoadsAs (.object (before ++ ("enum", .array vs) :: after)) s ∧
        s.shape place = pure (.enumeration (vs.map Json.canonical)) := by
  obtain ⟨a, bare, single, listed⟩ := exists_load accompanied
  refine ⟨⟨_, loadsAs_iff.mpr rfl, ?_, ?_⟩, _, loadsAs_iff.mpr rfl, ?_⟩
  · rw [single]
    by_cases null : v = .null
    · subst null
      have other := a.value_shape_ne_literal .null place
      exact iff_of_false (fun same => other (congrArg Noted.value same)) (fun differs => differs rfl)
    · have given : v.canonical.given? = some v.canonical := by
        cases v <;> first | rfl | exact absurd rfl null
      rw [given]
      exact iff_of_true (a.shape_value v.canonical place) null
  · rintro rfl
    rw [loadsAs_iff, single, bare]
    rfl
  · rw [listed]
    exact a.shape_values (by simpa using nonempty) place

/-- Beside a type and a description. -/
theorem values_exact_described :
    (∀ m ∈ [("type", Json.string "string")] ++ [("description", .string "Either.")],
        Accompanies m) ∧ [Json.null, .string "a"] ≠ [] ∧
      (∃ s, LoadsAs (.object [("type", .string "string"), ("const", .bool true),
          ("description", .string "Either.")]) s ∧
        s.shape none = pure (.literal (.bool true))) ∧
      ∃ s, LoadsAs (.object [("type", .string "string"), ("enum", .array [.null, .string "a"]),
          ("description", .string "Either.")]) s ∧
        s.shape none = pure (.enumeration [.null, .string "a"]) := by
  have accompanied : ∀ m ∈ [("type", Json.string "string")] ++ [("description", .string "Either.")],
      Accompanies m := by
    simp only [List.cons_append, List.nil_append, List.forall_mem_cons]
    exact ⟨.type (by decide), .description "Either.", List.forall_mem_nil _⟩
  have nonempty : [Json.null, .string "a"] ≠ [] := List.cons_ne_nil _ _
  obtain ⟨⟨s, loads, exact, -⟩, listed⟩ := values_exact accompanied (.bool true) nonempty none
  exact ⟨accompanied, nonempty, ⟨s, loads, exact.mpr nofun⟩, listed⟩

/-- **The value null is lost**: an object that gives it alone has the shape of any value, and the
warning is that the object asks for nothing that is known. -/
theorem not_literal_null : ∃ s, LoadsAs (.object [("const", .null)]) s ∧
    s.shape none = ⟨.unknown, [⟨.warning, "schema.unsupported",
      "Unsupported schema shape; falling back to unknown.", none⟩]⟩ ∧
    s.shape none ≠ pure (.literal .null) := by
  refine ⟨_, loadsAs_iff.mpr rfl, ?_⟩
  have loaded : load (.object [("const", .null)]) = .keywords Keywords.blank := by
    have fit : ∀ m ∈ [("const", Json.null)], Fits m.1 m.2.canonical := by
      rw [List.forall_mem_singleton]
      trivial
    rw [load_object fit]
    rfl
  have shape : (Schema.keywords Keywords.blank).shape none = ⟨.unknown, [⟨.warning,
      "schema.unsupported", "Unsupported schema shape; falling back to unknown.", none⟩]⟩ := by
    have asked : (Keywords.blank : Keywords Schema).withoutNull.form = .typed .unsupported := rfl
    rw [shape_keywords rfl (Option.some_ne_none true).symm rfl rfl, asked, formShape, typeShape]
    rfl
  rw [loaded, shape]
  exact ⟨rfl, fun same => by cases congrArg Noted.value same⟩

end Schema

end ClientGen
