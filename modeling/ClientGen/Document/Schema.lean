import ClientGen.Json.Failure

/-!
# Schemas

* `Keywords` — the keywords of a schema that matter, with schemas of any type inside.
* `Schema` — the keywords of a schema, or why there are none.
* `Schema.same` — equality of schemas.
* `Schema.ofJson` — the schema of a JSON value.

**A schema is never refused.** A value that is no object, or an object with a keyword of the wrong
shape, becomes a schema without keywords that says what is wrong with it.

**Null is absence**: a keyword with the value null counts as not given.
-/

namespace ClientGen

/-- The types that a schema names. -/
inductive TypeNames where
  /-- One name. -/
  | single (name : String)
  /-- A list of names. -/
  | several (names : List String)
  deriving DecidableEq, Repr, Inhabited

/-- What a schema says about members that it does not list. -/
inductive Additional (σ : Type) where
  /-- Whether there may be any. -/
  | flag (allowed : Bool)
  /-- What their values look like. -/
  | schema (values : σ)
  deriving Repr, Inhabited

/-- **The keywords of a schema.** -/
structure Keywords (σ : Type) where
  /-- The keyword `type`. -/
  type : Option TypeNames
  /-- The keyword `$ref`. -/
  ref : Option String
  /-- The keyword `properties`. -/
  properties : Option (List (String × σ))
  /-- The keyword `required`. -/
  required : Option (List String)
  /-- The keyword `items`. -/
  items : Option σ
  /-- The keyword `enum`. -/
  values : Option (List Json)
  /-- The keyword `const`. -/
  value : Option Json
  /-- The keyword `anyOf`. -/
  anyOf : Option (List σ)
  /-- The keyword `oneOf`. -/
  oneOf : Option (List σ)
  /-- The keyword `allOf`. -/
  allOf : Option (List σ)
  /-- The keyword `additionalProperties`. -/
  additional : Option (Additional σ)
  /-- The keyword `format`. -/
  format : Option String
  /-- The keyword `nullable`. -/
  nullable : Option Bool
  /-- The keyword `description`. -/
  description : Option String
  deriving Inhabited

/-- No keywords. -/
def Keywords.blank {σ : Type} : Keywords σ where
  type := none
  ref := none
  properties := none
  required := none
  items := none
  values := none
  value := none
  anyOf := none
  oneOf := none
  allOf := none
  additional := none
  format := none
  nullable := none
  description := none

/-- **A schema.** -/
inductive Schema where
  /-- Something that is no schema, and why. -/
  | malformed (reason : String)
  /-- The keywords of a schema. -/
  | keywords (keywords : Keywords Schema)
  deriving Inhabited

namespace Schema

mutual

/-- **Equality of schemas.** Properties are compared by name, in any order; everything else is
compared as it stands. -/
def same : Schema → Schema → Bool
  | .malformed r, .malformed r' => r == r'
  | .keywords k, .keywords k' => sameKeywords k k'
  | _, _ => false

/-- Equality of keywords. -/
def sameKeywords : Keywords Schema → Keywords Schema → Bool
  | ⟨type, ref, properties, required, items, values, value, anyOf, oneOf, allOf, additional, format,
      nullable, description⟩, k =>
    type == k.type && ref == k.ref && sameProperties properties k.properties &&
      required == k.required && sameOption items k.items && values == k.values &&
      value == k.value && sameMembers anyOf k.anyOf && sameMembers oneOf k.oneOf &&
      sameMembers allOf k.allOf && sameAdditional additional k.additional &&
      format == k.format && nullable == k.nullable && description == k.description

/-- Equality of schemas that may be absent. -/
def sameOption : Option Schema → Option Schema → Bool
  | none, none => true
  | some s, some s' => same s s'
  | _, _ => false

/-- Equality of properties that may be absent: as many of them, and each one among the others. -/
def sameProperties : Option (List (String × Schema)) → Option (List (String × Schema)) → Bool
  | none, none => true
  | some ps, some ps' => ps.length == ps'.length && eachAmong ps ps'
  | _, _ => false

/-- Whether each property is among others with its name. -/
def eachAmong : List (String × Schema) → List (String × Schema) → Bool
  | [], _ => true
  | (name, s) :: ps, ps' =>
    (match ps'.lookup name with
      | some s' => same s s'
      | none => false) && eachAmong ps ps'

/-- Equality of lists of schemas that may be absent. -/
def sameMembers : Option (List Schema) → Option (List Schema) → Bool
  | none, none => true
  | some ss, some ss' => sameList ss ss'
  | _, _ => false

/-- Equality of lists of schemas. -/
def sameList : List Schema → List Schema → Bool
  | [], [] => true
  | s :: ss, s' :: ss' => same s s' && sameList ss ss'
  | _, _ => false

/-- Equality of what is said about further members. -/
def sameAdditional : Option (Additional Schema) → Option (Additional Schema) → Bool
  | none, none => true
  | some (.flag b), some (.flag b') => b == b'
  | some (.schema s), some (.schema s') => same s s'
  | _, _ => false

end

/-- What a reader makes of a value other than null. -/
def given {α : Type} (read : Json → Except Mismatch α) : Json → Except Mismatch (Option α)
  | .null => .ok none
  | v => (read v).map some

/-- A string. -/
def text : Json → Except Mismatch String
  | .string s => .ok s
  | v => .error (.wrongType v.shown "a string")

/-- A truth value. -/
def flag : Json → Except Mismatch Bool
  | .bool b => .ok b
  | v => .error (.wrongType v.shown "a boolean")

/-- Any values, as a list. -/
def anyValues : Json → Except Mismatch (List Json)
  | .array vs => .ok vs
  | v => .error (.wrongType v.shown "a sequence")

/-- Strings, as a list. -/
def texts (v : Json) : Except Mismatch (List String) := do
  (← anyValues v).mapM text

/-- The names of types: a string or a list of strings. -/
def typeNames (v : Json) : Except Mismatch TypeNames :=
  match text v, texts v with
  | .ok name, _ => .ok (.single name)
  | _, .ok names => .ok (.several names)
  | _, _ => .error (.noneFits "SchemaType")

/-- A keyword that holds no schemas. -/
def plainKeyword (name : String) (v : Json) (k : Keywords Schema) :
    Except Mismatch (Keywords Schema) :=
  match name with
  | "type" => (given typeNames v).map fun x => { k with type := x }
  | "$ref" => (given text v).map fun x => { k with ref := x }
  | "required" => (given texts v).map fun x => { k with required := x }
  | "enum" => (given anyValues v).map fun x => { k with values := x }
  | "const" => (given .ok v).map fun x => { k with value := x }
  | "format" => (given text v).map fun x => { k with format := x }
  | "nullable" => (given flag v).map fun x => { k with nullable := x }
  | "description" => (given text v).map fun x => { k with description := x }
  | _ => .ok k

/-- The schema of something that is no object. -/
def notAnObject : Json → Schema
  | .bool b =>
    .malformed ("Boolean schema " ++ Mismatch.marked (if b then "true" else "false") ++
      " is not supported; using unknown.")
  | .array _ => .malformed "Tuple-form schema list is not supported; using unknown."
  | v => .malformed ("Schema must be an object, got " ++ Mismatch.marked v.compact ++
      "; using unknown.")

/-- The schema of what was read from an object. -/
def ofKeywords : Except Mismatch (Keywords Schema) → Schema
  | .ok k => .keywords k
  | .error e => .malformed ("Malformed schema (" ++ e.message ++ "); using unknown.")

/-- What is said about further members: a truth value, or a schema. -/
def additional? (v : Json) (schema : Unit → Schema) : Option (Additional Schema) :=
  match v with
  | .null => none
  | .bool b => some (.flag b)
  | _ => some (.schema (schema ()))

mutual

/-- **The schema of a JSON value** whose objects have each name once. The keyword that is reported
is the first one of the wrong shape. -/
def ofJson : Json → Schema
  | .object members => ofKeywords (keywordsOf Keywords.blank members)
  | v => notAnObject v

/-- The keywords of further members. -/
def keywordsOf (k : Keywords Schema) : List (String × Json) → Except Mismatch (Keywords Schema)
  | [] => .ok k
  | (name, v) :: members => do
    let k ← match name with
      | "properties" => (schemaMap v).map fun x => { k with properties := x }
      | "items" => .ok { k with items := if v.isNull then none else some (ofJson v) }
      | "anyOf" => (schemaList v).map fun x => { k with anyOf := x }
      | "oneOf" => (schemaList v).map fun x => { k with oneOf := x }
      | "allOf" => (schemaList v).map fun x => { k with allOf := x }
      | "additionalProperties" => .ok { k with additional := additional? v (fun _ => ofJson v) }
      | _ => plainKeyword name v k
    keywordsOf k members

/-- Schemas with names, unless the value is null. -/
def schemaMap : Json → Except Mismatch (Option (List (String × Schema)))
  | .object members => .ok (some (ofMembers members))
  | .null => .ok none
  | v => .error (.wrongType v.shown "a map")

/-- A list of schemas, unless the value is null. -/
def schemaList : Json → Except Mismatch (Option (List Schema))
  | .array vs => .ok (some (ofItems vs))
  | .null => .ok none
  | v => .error (.wrongType v.shown "a sequence")

/-- The schemas of items. -/
def ofItems : List Json → List Schema
  | [] => []
  | v :: vs => ofJson v :: ofItems vs

/-- The schemas of members. -/
def ofMembers : List (String × Json) → List (String × Schema)
  | [] => []
  | (name, v) :: members => (name, ofJson v) :: ofMembers members

end

end Schema

end ClientGen
