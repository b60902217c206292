import ClientGen.Document.Reading
import ClientGen.Proofs.Json.Tree
import ClientGen.Proofs.Schema.Reading

/-!
# Loading schemas

Reading a schema never fails. A value whose keywords have their shapes becomes the keywords of a
schema, and every other value becomes a schema that says what is wrong; the schemas inside are
loaded by themselves, so that nothing wrong with one of them reaches the schema around it.

* `Schema.load` — the schema that a value becomes.
* `Schema.Fits` — what the value of a keyword has to look like.
* `Keywords.withMembers` — the keywords that members give, over those that are known before.
* `Schema.load_exact` — a value loads as keywords iff it is an object whose members fit, and then
  as the keywords that its members give.

Keywords are read one after the other, and what one member does to the keywords before it is again
`Keywords.withMembers`, for that member alone. Going on behind it is then a fact about look-ups in
members with distinct names (`Keywords.withMembers_cons`).
-/

namespace ClientGen

/-! ## Parts of values -/

namespace Json

/-- The truth value that a value is. -/
def flag? : Json → Option Bool
  | .bool b => some b
  | _ => none

/-- The items of an array. -/
def items? : Json → Option (List Json)
  | .array vs => some vs
  | _ => none

/-- The members of an object. -/
def members? : Json → Option (List (String × Json))
  | .object ms => some ms
  | _ => none

/-- The strings in an array that holds nothing else. -/
def strings? (v : Json) : Option (List String) :=
  v.items?.bind (·.mapM string?)

/-- A value other than null. -/
def given? (v : Json) : Option Json :=
  if v.isNull then none else some v

/-- A value is a string. -/
def IsText (v : Json) : Prop :=
  ∃ s, v = .string s

/-- A value is a list of strings. -/
def IsTexts (v : Json) : Prop :=
  ∃ ss, v = .ofStrings ss

/-- A value is a list. -/
def IsList (v : Json) : Prop :=
  ∃ vs, v = .array vs

end Json

namespace Schema

/-- **The schema that a value becomes.** -/
def load (v : Json) : Schema :=
  ofJson v.canonical

/-- **What the value of a keyword has to look like**, unless it is null. A constant, a schema, and
whatever has no meaning here may look like anything. -/
def Fits (name : String) (v : Json) : Prop :=
  match name with
  | "type" => v.IsText ∨ v.IsTexts
  | "$ref" => v.IsText
  | "format" => v.IsText
  | "description" => v.IsText
  | "nullable" => ∃ b, v = .bool b
  | "required" => v.IsTexts
  | "properties" => ∃ ms, v = .object ms
  | "enum" => v.IsList
  | "anyOf" => v.IsList
  | "oneOf" => v.IsList
  | "allOf" => v.IsList
  | _ => True

/-- Every member has the value null or one that fits its name. -/
def AllFit (members : List (String × Json)) : Prop :=
  ∀ m ∈ members, m.2 = .null ∨ Fits m.1 m.2

/-- The names of types that a value holds. -/
def typeNames? (v : Json) : Option TypeNames :=
  match v.string? with
  | some name => some (.single name)
  | none => v.strings?.map .several

/-- What a value says about further members: whether there may be any, or their schema. -/
def further? (v : Json) : Option (Additional Schema) :=
  match v.flag? with
  | some allowed => some (.flag allowed)
  | none => v.given?.map fun w => .schema (load w)

end Schema

/-! ## Keywords that members give -/

namespace Keywords

open OrderedMap (Distinct lookup_cons_of_ne lookup_eq_none)

variable {α : Type} {m : String × Json} {ms : List (String × Json)}

/-- **What members say by one name**, or else what is known before. -/
def field (members : List (String × Json)) (name : String) (found : Json → Option α)
    (before : Option α) : Option α :=
  match members.lookup name with
  | some v => found v
  | none => before

/-- **The keywords that members give**, over those that are known before. Every schema inside is the
one that its own value becomes. -/
def withMembers (k : Keywords Schema) (members : List (String × Json)) : Keywords Schema where
  type := field members "type" Schema.typeNames? k.type
  ref := field members "$ref" Json.string? k.ref
  properties :=
    field members "properties" (·.members?.map (OrderedMap.mapValues Schema.load)) k.properties
  required := field members "required" Json.strings? k.required
  items := field members "items" (·.given?.map Schema.load) k.items
  values := field members "enum" Json.items? k.values
  value := field members "const" Json.given? k.value
  anyOf := field members "anyOf" (·.items?.map (·.map Schema.load)) k.anyOf
  oneOf := field members "oneOf" (·.items?.map (·.map Schema.load)) k.oneOf
  allOf := field members "allOf" (·.items?.map (·.map Schema.load)) k.allOf
  additional := field members "additionalProperties" Schema.further? k.additional
  format := field members "format" Json.string? k.format
  nullable := field members "nullable" Json.flag? k.nullable
  description := field members "description" Json.string? k.description

/-- A member says nothing about a keyword of another name. -/
theorem field_of_ne {own name : String} (differs : own ≠ name) (v : Json)
    (found : Json → Option α) (before : Option α) :
    field [(own, v)] name found before = before := by
  simp [field, lookup_cons_of_ne (Ne.symm differs)]

/-- Members with distinct names say what the first of them says, and then the rest. -/
theorem field_cons (distinct : Distinct (m :: ms)) (name : String) (found : Json → Option α)
    (before : Option α) :
    field (m :: ms) name found before = field ms name found (field [m] name found before) := by
  obtain ⟨own, v⟩ := m
  obtain ⟨fresh, -⟩ := List.nodup_cons.mp distinct
  by_cases same : own = name
  · subst same
    have later : ms.lookup own = none := lookup_eq_none.mpr fresh
    simp [field, later]
  · have differs : name ≠ own := Ne.symm same
    simp [field, lookup_cons_of_ne differs]

/-- **Going on behind a member** goes on from the keywords that it gives. -/
theorem withMembers_cons (distinct : Distinct (m :: ms)) (k : Keywords Schema) :
    k.withMembers (m :: ms) = (k.withMembers [m]).withMembers ms := by
  simp only [withMembers, field_cons distinct]

end Keywords

namespace Schema

variable {v : Json}

/-! ## Readers of keywords -/

/-- A text is read where there is one. -/
theorem toOption_text : (text v).toOption = v.string? := by
  cases v <;> rfl

theorem toOption_flag : (flag v).toOption = v.flag? := by
  cases v <;> rfl

theorem toOption_anyValues : (anyValues v).toOption = v.items? := by
  cases v <;> rfl

theorem toOption_mapM_text (vs : List Json) : (vs.mapM text).toOption = vs.mapM Json.string? := by
  induction vs with
  | nil => rfl
  | cons v vs ih =>
      rw [List.mapM_cons, List.mapM_cons, ← ih, ← toOption_text]
      cases text v <;> cases vs.mapM text <;> rfl

theorem toOption_texts : (texts v).toOption = v.strings? := by
  cases v with
  | array vs => exact toOption_mapM_text vs
  | _ => rfl

/-- The types are read from a name or from a list of names. -/
theorem toOption_typeNames : (typeNames v).toOption = typeNames? v := by
  rw [typeNames, typeNames?, ← toOption_text, ← toOption_texts]
  cases text v <;> cases texts v <;> rfl

theorem isText_iff : v.IsText ↔ ∃ s, v.string? = some s := by
  cases v <;> simp [Json.IsText, Json.string?]

theorem isList_iff : v.IsList ↔ ∃ vs, v.items? = some vs := by
  cases v <;> simp [Json.IsList, Json.items?]

theorem isFlag_iff : (∃ b, v = .bool b) ↔ ∃ b, v.flag? = some b := by
  cases v <;> simp [Json.flag?]

/-- All items are texts, and these are the texts. -/
theorem mapM_string?_eq_some_iff {vs : List Json} {ss : List String} :
    vs.mapM Json.string? = some ss ↔ vs = ss.map .string := by
  induction vs generalizing ss with
  | nil => cases ss <;> simp
  | cons v vs ih =>
      rw [List.mapM_cons]
      cases ss <;> cases v <;> simp [Json.string?, Option.bind_eq_some_iff, ih, and_comm]

theorem isTexts_iff : v.IsTexts ↔ ∃ ss, v.strings? = some ss := by
  cases v <;>
    simp [Json.IsTexts, Json.strings?, Json.items?, Json.ofStrings, mapM_string?_eq_some_iff]

/-- A value looks like types iff it is read as types. -/
theorem isNames_iff : v.IsText ∨ v.IsTexts ↔ ∃ names, typeNames? v = some names := by
  rw [isText_iff, isTexts_iff, typeNames?]
  cases v.string? <;> simp

/-- **A keyword without schemas** is read iff its value is null or fits. -/
theorem given_eq_ok_iff {α : Type} {read : Json → Except Mismatch α} {found : Json → Option α}
    {fits : Prop} {x : Option α} (reads : (read v).toOption = found v) (null : found .null = none)
    (shape : fits ↔ ∃ a, found v = some a) :
    given read v = .ok x ↔ (v = .null ∨ fits) ∧ x = found v := by
  rw [shape, ← reads]
  unfold given
  split
  · rw [reads, null]
    simp [eq_comm]
  · rename_i notNull
    cases read v with
    | error e => simp [Except.map, Except.toOption, show v ≠ .null from notNull]
    | ok a => simp [Except.map, Except.toOption, eq_comm]

theorem given_ok_eq_ok_iff {x : Option Json} :
    given .ok v = .ok x ↔ (v = .null ∨ True) ∧ x = v.given? := by
  cases v <;> simp [given, Json.given?, Json.isNull, Except.map, eq_comm]

/-- A map of schemas is read iff its value is null or an object. Nothing is asked of the schemas
inside, which are loaded by themselves. -/
theorem schemaMap_eq_ok_iff (canonical : v.canonical = v) {x : Option (List (String × Schema))} :
    schemaMap v = .ok x ↔
      (v = .null ∨ ∃ ms, v = .object ms) ∧ x = v.members?.map (OrderedMap.mapValues load) := by
  cases v with
  | object ms =>
      obtain ⟨-, members⟩ := Json.members_of_canonical canonical
      have each : ofMembers ms = OrderedMap.mapValues load ms := by
        rw [ofMembers_eq_mapValues]
        refine List.map_congr_left fun m member => ?_
        rw [load, members m member]
      simp [schemaMap, Json.members?, each, eq_comm]
  | _ => simp [schemaMap, Json.members?, eq_comm]

/-- A list of schemas is read iff its value is null or a list, whatever its items are. -/
theorem schemaList_eq_ok_iff (canonical : v.canonical = v) {x : Option (List Schema)} :
    schemaList v = .ok x ↔ (v = .null ∨ v.IsList) ∧ x = v.items?.map (·.map load) := by
  cases v with
  | array vs =>
      have items := Json.items_of_canonical canonical
      have each : ofItems vs = vs.map load := by
        rw [ofItems_eq_map]
        refine List.map_congr_left fun w member => ?_
        rw [load, items w member]
      simp [schemaList, Json.items?, Json.IsList, each, eq_comm]
  | _ => simp [schemaList, Json.items?, Json.IsList, eq_comm]

/-- A reading with one result, whenever something holds, goes on from this result. -/
theorem map_bind_eq_ok_iff {α : Type} {reading : Except Mismatch α} {fits : Prop} {found : α}
    {set : α → Keywords Schema} {rest : Keywords Schema → Except Mismatch (Keywords Schema)}
    {r : Keywords Schema} (reads : ∀ {x}, reading = .ok x ↔ fits ∧ x = found) :
    reading.map set >>= rest = .ok r ↔ fits ∧ rest (set found) = .ok r := by
  simp only [bind_eq_ok_iff, map_eq_ok_iff, reads]
  constructor
  · rintro ⟨_, ⟨x, ⟨fit, rfl⟩, rfl⟩, result⟩
    exact ⟨fit, result⟩
  · rintro ⟨fit, result⟩
    exact ⟨_, ⟨_, ⟨fit, rfl⟩, rfl⟩, result⟩

/-- **What one member does**: it is read iff it fits, and reading goes on from what it gives. -/
theorem keywordsOf_cons_eq_ok_iff {k r : Keywords Schema} {name : String}
    {ms : List (String × Json)} (canonical : v.canonical = v) :
    keywordsOf k ((name, v) :: ms) = .ok r ↔
      (v = .null ∨ Fits name v) ∧ keywordsOf (k.withMembers [(name, v)]) ms = .ok r := by
  have self : ofJson v = load v := by rw [load, canonical]
  conv_lhs => unfold keywordsOf
  dsimp only
  -- one case for each keyword that holds schemas, and then one for each that does not; what fits a
  -- keyword and what it gives unfold to the shape and the value that its reader is about
  split
  · exact map_bind_eq_ok_iff (schemaMap_eq_ok_iff canonical)
  · have items : (if v.isNull then none else some (ofJson v)) = v.given?.map load := by
      rw [self, Json.given?]
      split <;> rfl
    rw [items]
    exact (and_iff_right (Or.inr trivial)).symm
  · exact map_bind_eq_ok_iff (schemaList_eq_ok_iff canonical)
  · exact map_bind_eq_ok_iff (schemaList_eq_ok_iff canonical)
  · exact map_bind_eq_ok_iff (schemaList_eq_ok_iff canonical)
  · have additional : (additional? v fun _ => ofJson v) = further? v := by
      rw [self]
      cases v <;> rfl
    rw [additional]
    exact (and_iff_right (Or.inr trivial)).symm
  · unfold plainKeyword
    split
    · exact map_bind_eq_ok_iff (given_eq_ok_iff toOption_typeNames rfl isNames_iff)
    · exact map_bind_eq_ok_iff (given_eq_ok_iff toOption_text rfl isText_iff)
    · exact map_bind_eq_ok_iff (given_eq_ok_iff toOption_texts rfl isTexts_iff)
    · exact map_bind_eq_ok_iff (given_eq_ok_iff toOption_anyValues rfl isList_iff)
    · exact map_bind_eq_ok_iff given_ok_eq_ok_iff
    · exact map_bind_eq_ok_iff (given_eq_ok_iff toOption_text rfl isText_iff)
    · exact map_bind_eq_ok_iff (given_eq_ok_iff toOption_flag rfl isFlag_iff)
    · exact map_bind_eq_ok_iff (given_eq_ok_iff toOption_text rfl isText_iff)
    -- a name without a meaning
    · have same : k.withMembers [(name, v)] = k := by
        simp (disch := assumption) only [Keywords.withMembers, Keywords.field_of_ne]
      have fits : Fits name v := by
        simp (disch := assumption) only [Fits]
      rw [same]
      exact (and_iff_right (.inr fits)).symm

/-- **Members are read iff each of them is null or fits**, and what is read is what they give. -/
theorem keywordsOf_eq_ok_iff {k r : Keywords Schema} {ms : List (String × Json)}
    (distinct : OrderedMap.Distinct ms) (canonical : ∀ m ∈ ms, m.2.canonical = m.2) :
    keywordsOf k ms = .ok r ↔ AllFit ms ∧ r = k.withMembers ms := by
  induction ms generalizing k with
  | nil =>
      rw [keywordsOf, Except.ok.injEq]
      exact ⟨fun same => ⟨List.forall_mem_nil _, same.symm⟩, fun given => given.2.symm⟩
  | cons m ms ih =>
      obtain ⟨name, v⟩ := m
      obtain ⟨first, later⟩ := List.forall_mem_cons.mp canonical
      obtain ⟨-, rest⟩ := List.nodup_cons.mp distinct
      rw [keywordsOf_cons_eq_ok_iff first, ih rest later, ← Keywords.withMembers_cons distinct,
        AllFit, AllFit, List.forall_mem_cons, and_assoc]

/-- **A value loads as keywords** iff it is an object whose members fit, and then as the keywords
that its members give. -/
theorem load_eq_keywords_iff (v : Json) (k : Keywords Schema) :
    load v = .keywords k ↔
      ∃ ms, v.canonical = .object ms ∧ AllFit ms ∧ k = Keywords.blank.withMembers ms := by
  have fixed := Json.canonical_canonical v
  rw [load]
  cases form : v.canonical with
  | object ms =>
      rw [form] at fixed
      obtain ⟨distinct, members⟩ := Json.members_of_canonical fixed
      have loaded : ofJson (.object ms) = .keywords k ↔ keywordsOf .blank ms = .ok k := by
        rw [ofJson]
        cases keywordsOf .blank ms <;> simp [ofKeywords]
      rw [loaded, keywordsOf_eq_ok_iff distinct members]
      simp
  | _ => simp [ofJson, notAnObject]

/-- A value is read as the schema that it becomes, if there is room for its depth. -/
theorem readSchema_source (v : Json) (room : Nat) :
    Document.readSchema (⟨v.source, room + v.depth⟩ : Json.Cursor) = .ok (load v) := by
  have value : v.source.value (room + v.depth) = .ok v :=
    Json.Source.value_source v _ (Nat.le_add_left ..)
  show (fun v => load v) <$> v.source.value (room + v.depth) = _
  rw [value]
  rfl

/-- **Loading a schema never fails, and what is wrong stays where it is.** A value is read as a
schema; it is one with keywords iff the value is an object in which every keyword that is not null
has its shape; and then every keyword is what its own value says, with the schemas inside loaded by
themselves. -/
theorem load_exact (v : Json) (room : Nat) :
    Document.readSchema (⟨v.source, room + v.depth⟩ : Json.Cursor) = .ok (load v) ∧
      ((∃ k, load v = .keywords k) ↔ ∃ ms, v.canonical = .object ms ∧ AllFit ms) ∧
      ∀ k, load v = .keywords k ↔
        ∃ ms, v.canonical = .object ms ∧ AllFit ms ∧ k = Keywords.blank.withMembers ms := by
  refine ⟨readSchema_source v room, ?_, load_eq_keywords_iff v⟩
  constructor
  · rintro ⟨k, loaded⟩
    obtain ⟨ms, object, fit, -⟩ := (load_eq_keywords_iff v k).mp loaded
    exact ⟨ms, object, fit⟩
  · rintro ⟨ms, object, fit⟩
    exact ⟨_, (load_eq_keywords_iff v _).mpr ⟨ms, object, fit, rfl⟩⟩

end Schema

end ClientGen
