import ClientGen.Go.Shapes
import ClientGen.Proofs.Shape.Renaming
import ClientGen.Proofs.Text.Lines

/-!
# Types of Go as they are written

The types of a client are made as texts, and what is put in front of a type depends on how its text
starts. So the texts are read again here, and what they say is a type with an operator at the
outside, or a name.

* `TypeExpr`, `TypeExpr.read` — a type, and the type that a text says.
* `TypeExpr.Nilable` — the types that have a value for absence.
* `outside_typeOf` — what stands at the outside of the type of a shape.
* `absence_exact` — types of what may be null or absent have a value for absence, and no pointer
  points to a pointer.

Null and absence each put a star in front of a type, and a reference in a field does, too. None of
them puts it in front of another star, because each looks at the start of the text; inside a type a
star only follows a bracket.
-/

namespace ClientGen.Go

open Text

/-! ## Reading types -/

/-- **A type of Go**, as far as clients use types. -/
inductive TypeExpr where
  /-- A name. -/
  | named (name : String)
  /-- A pointer. -/
  | pointer (target : TypeExpr)
  /-- A slice. -/
  | slice (items : TypeExpr)
  /-- A map. -/
  | map (keys : String) (values : TypeExpr)
  deriving DecidableEq

namespace TypeExpr

mutual

/-- **The type that a text says**: operators from the outside inwards, and the name behind them. -/
def read : List Char → TypeExpr
  | '*' :: cs => .pointer (read cs)
  | '[' :: ']' :: cs => .slice (read cs)
  | 'm' :: 'a' :: 'p' :: '[' :: cs => readMap [] cs
  | cs => .named (String.ofList cs)

/-- The map whose keys, so far, have a type that is given backwards. -/
def readMap (keys : List Char) : List Char → TypeExpr
  | ']' :: cs => .map (String.ofList keys.reverse) (read cs)
  | c :: cs => readMap (c :: keys) cs
  | [] => .named (String.ofList ("map[".toList ++ keys.reverse))

end

/-- **A type has a value for absence**: it is `any`, a pointer, a slice or a map. -/
def Nilable : TypeExpr → Prop
  | .named name => name = "any"
  | .pointer _ => True
  | .slice _ => True
  | .map _ _ => True

theorem read_pointer (target : String) :
    read ("*" ++ target).toList = .pointer (read target.toList) := by
  rw [String.toList_append]
  rfl

theorem read_slice (items : String) :
    read ("[]" ++ items).toList = .slice (read items.toList) := by
  rw [String.toList_append]
  rfl

theorem read_map (values : String) :
    read ("map[string]" ++ values).toList = .map "string" (read values.toList) := by
  rw [String.toList_append]
  rfl

/-- A text that starts with no operator is a name. -/
theorem read_of_plain {name : String} (plain : ∀ c ∈ name.toList.head?, c ∉ ['*', '[', 'm']) :
    read name.toList = .named name := by
  unfold read
  split
  · rename_i cs letters
    rw [letters] at plain
    exact absurd (plain '*' rfl) (by decide)
  · rename_i cs letters
    rw [letters] at plain
    exact absurd (plain '[' rfl) (by decide)
  · rename_i cs letters
    rw [letters] at plain
    exact absurd (plain 'm' rfl) (by decide)
  · rw [String.ofList_toList]

end TypeExpr

/-! ## The outside of types -/

theorem startsWith_iff {beginning type : String} :
    type.startsWith beginning ↔ ∃ rest, type = beginning ++ rest := by
  rw [String.startsWith_string_iff]
  constructor
  · rintro ⟨rest, letters⟩
    refine ⟨String.ofList rest, ?_⟩
    rw [← String.toList_inj, String.toList_append, String.toList_ofList, letters]
  · rintro ⟨rest, rfl⟩
    rw [String.toList_append]
    exact List.prefix_append ..

/-- The types of scalars, and the type of any value. -/
def scalarTypes : List String :=
  ["string", "int64", "float64", "bool", "any"]

/-- **What stands at the outside of a type** that is not the name of a model. -/
inductive Outside : String → Prop
  /-- The name of a scalar type, or that of any value. -/
  | scalar {type : String} (listed : type ∈ scalarTypes) : Outside type
  /-- A pointer. -/
  | pointer (target : String) : Outside ("*" ++ target)
  /-- A slice. -/
  | slice (items : String) : Outside ("[]" ++ items)
  /-- A map. -/
  | map (values : String) : Outside ("map[string]" ++ values)

theorem enumerationType_mem (values : List Json) : enumerationType values ∈ scalarTypes := by
  unfold enumerationType
  split_ifs <;> decide

/-- **Induction along the parts of a type.** What holds of the scalar types and of the names that a
shape refers to, and passes to slices, maps and types that admit null, holds of the type of the
shape. -/
theorem typeOf_induction {P : String → Prop} (scalar : ∀ type ∈ scalarTypes, P type)
    (bytes : P "byte") (slice : ∀ {items}, P items → P ("[]" ++ items))
    (map : ∀ {values}, P values → P ("map[string]" ++ values))
    (null : ∀ {type}, P type → P (orNull type)) {shape : Shape}
    (names : ∀ name ∈ shape.references, P name) : P (typeOf shape) := by
  induction shape using Shape.children_induction with
  | step shape ih =>
      have child {inner : Shape} (member : inner ∈ shape.children) : P (typeOf inner) :=
        ih inner member fun name mentioned =>
          names name (Shape.mem_references_of_mem_children member mentioned)
      have any : P "any" := scalar "any" (by decide)
      cases shape with
      | primitive type => cases type <;> exact scalar _ (by decide)
      | literal value => exact any
      | enumeration values => exact scalar _ (enumerationType_mem values)
      | array items => exact slice (child (List.mem_singleton_self _))
      | object properties required extra =>
          cases extra with
          | unstated => exact map any
          | forbidden => exact map any
          | allowed values =>
              exact map (child (List.mem_append_right _ (List.mem_singleton_self _)))
      | union variants => exact any
      | intersection parts => exact any
      | ref name => exact names name (Shape.mem_references_ref name)
      | nullable inner => exact null (child (List.mem_singleton_self _))
      | binary => exact slice bytes
      | unknown => exact any

/-- Admitting null gives any value, or a pointer. -/
theorem orNull_cases (type : String) : orNull type = "any" ∨ ∃ target, orNull type = "*" ++ target := by
  unfold orNull
  split
  · rename_i already
    rw [Bool.or_eq_true, beq_iff_eq, startsWith_iff] at already
    exact already
  · exact .inr ⟨type, rfl⟩

theorem reference_cases (shape : Shape) :
    (∃ name, shape = .ref name) ∨ isReference shape = false := by
  cases shape with
  | ref name => exact .inl ⟨name, rfl⟩
  | _ => exact .inr rfl

/-- **The outside of the type of a shape** that is no reference. -/
theorem outside_typeOf {shape : Shape} (other : isReference shape = false) :
    Outside (typeOf shape) := by
  have any : Outside "any" := .scalar (by decide)
  cases shape with
  | primitive type => cases type <;> exact .scalar (by decide)
  | literal value => exact any
  | enumeration values => exact .scalar (enumerationType_mem values)
  | array items => exact .slice (typeOf items)
  | object properties required extra => exact .map _
  | union variants => exact any
  | intersection parts => exact any
  | ref name => cases other
  | nullable inner =>
      show Outside (orNull (typeOf inner))
      rcases orNull_cases (typeOf inner) with same | ⟨target, pointer⟩
      · exact same ▸ any
      · exact pointer ▸ .pointer target
  | binary => exact .slice "byte"
  | unknown => exact any

theorem read_scalar : ∀ type ∈ scalarTypes, TypeExpr.read type.toList = .named type := by
  decide

/-! ## Values for absence -/

/-- **A text says a type that has a value for absence.** -/
def Nilable (type : String) : Prop :=
  (TypeExpr.read type.toList).Nilable

theorem nilable_pointer (target : String) : Nilable ("*" ++ target) := by
  rw [Nilable, TypeExpr.read_pointer]
  trivial

/-- What the generator asks about a text. -/
theorem isNilable_iff {type : String} :
    isNilable type ↔ type = "any" ∨ "*".toList <+: type.toList ∨ "[]".toList <+: type.toList ∨
      "map[".toList <+: type.toList := by
  simp only [isNilable, Bool.or_eq_true, beq_iff_eq, String.startsWith_string_iff, or_assoc]

/-- **The generator knows the types that have a value for absence** by their texts. -/
theorem Outside.isNilable_iff {type : String} (outside : Outside type) :
    isNilable type ↔ Nilable type := by
  cases outside with
  | scalar listed =>
      have named := read_scalar type listed
      have start : ∀ type ∈ scalarTypes, ¬ ("*".toList <+: type.toList ∨ "[]".toList <+: type.toList ∨
        "map[".toList <+: type.toList) := by decide
      rw [Go.isNilable_iff, or_iff_left (start type listed), Nilable, named]
      rfl
  | pointer target =>
      have start : isNilable ("*" ++ target) := by
        rw [Go.isNilable_iff, String.toList_append]
        exact .inr (.inl (List.prefix_append ..))
      exact iff_of_true start (nilable_pointer target)
  | slice items =>
      rw [Go.isNilable_iff, Nilable, TypeExpr.read_slice, String.toList_append]
      exact iff_of_true (.inr (.inr (.inl (List.prefix_append ..)))) trivial
  | map values =>
      rw [Go.isNilable_iff, Nilable, TypeExpr.read_map, String.toList_append]
      have start : "map[".toList <+: "map[string]".toList ++ values.toList := ⟨_, rfl⟩
      exact iff_of_true (.inr (.inr (.inr start))) trivial

/-- **What admits null** has a value for absence. -/
theorem nilable_orNull (type : String) : Nilable (orNull type) := by
  rcases orNull_cases type with any | ⟨target, pointer⟩
  · rw [any, Nilable, read_scalar "any" (by decide)]
    rfl
  · exact pointer ▸ nilable_pointer target

theorem fieldType_ref (name : String) (required : Bool) :
    fieldType (.ref name) required = "*" ++ name := rfl

/-- A field that has to be there has the type of its shape, unless this is a reference. -/
theorem fieldType_true {shape : Shape} (other : isReference shape = false) :
    fieldType shape true = typeOf shape := by
  simp [fieldType, other]

/-- A field that may be absent is a pointer, unless its type has a value for absence. -/
theorem fieldType_false {shape : Shape} (other : isReference shape = false) :
    fieldType shape false =
      if isNilable (typeOf shape) then typeOf shape else "*" ++ typeOf shape := by
  show (if isReference shape || (!false && !isNilable (typeOf shape)) then _ else _) = _
  rw [other]
  cases isNilable (typeOf shape) <;> rfl

theorem nilable_fieldType_ref (name : String) (required : Bool) :
    Nilable (fieldType (.ref name) required) :=
  nilable_pointer name

/-- **What may be absent** has a value for absence. -/
theorem nilable_fieldType_false (shape : Shape) : Nilable (fieldType shape false) := by
  rcases reference_cases shape with ⟨name, rfl⟩ | other
  · exact nilable_fieldType_ref name false
  · rw [fieldType_false other]
    split
    · rename_i known
      exact (outside_typeOf other).isNilable_iff.mp known
    · exact nilable_pointer _

/-! ## Pointers to pointers -/

/-- **A text has two stars in a row.** -/
def Doubled (type : String) : Prop :=
  "**".toList <:+: type.toList

theorem not_doubled_of_notMem {type : String} (plain : '*' ∉ type.toList) : ¬ Doubled type :=
  fun doubled => plain (doubled.subset (by decide))

/-- Brackets in front add no stars. -/
theorem doubled_append_iff {front : String} (plain : '*' ∉ front.toList) (type : String) :
    Doubled (front ++ type) ↔ Doubled type := by
  have apart : ∀ c ∈ front.toList, c ∉ "**".toList := by
    rintro c inside star
    obtain rfl : c = '*' := by simpa using star
    exact plain inside
  rw [Doubled, String.toList_append, infix_append_iff_of_disjoint apart (by decide), Doubled]

/-- A star in front of a text that does not start with one stands alone. -/
theorem not_doubled_pointer {type : String} (single : ¬ Doubled type)
    (other : ¬ "*".toList <+: type.toList) : ¬ Doubled ("*" ++ type) := by
  have letters : ("*" ++ type).toList = '*' :: type.toList := by simp
  rw [Doubled, letters, List.infix_cons_iff, not_or]
  refine ⟨fun start => other ?_, single⟩
  have second : "**".toList = '*' :: "*".toList := by decide
  rw [second, List.cons_prefix_cons] at start
  exact start.2

/-- Admitting null doubles no star. -/
theorem not_doubled_orNull {type : String} (single : ¬ Doubled type) : ¬ Doubled (orNull type) := by
  unfold orNull
  split
  · exact single
  · rename_i other
    rw [Bool.or_eq_true, not_or, String.startsWith_string_iff] at other
    exact not_doubled_pointer single other.2

/-- **The type of a shape has no two stars in a row**, if no name brings a star along. -/
theorem not_doubled_typeOf {shape : Shape}
    (plain : ∀ name ∈ shape.references, '*' ∉ name.toList) : ¬ Doubled (typeOf shape) := by
  have scalar : ∀ type ∈ scalarTypes, '*' ∉ type.toList := by decide
  refine typeOf_induction (P := fun type => ¬ Doubled type) ?scalar ?bytes ?slice ?map
    not_doubled_orNull fun name mentioned => not_doubled_of_notMem (plain name mentioned)
  case scalar => exact fun type listed => not_doubled_of_notMem (scalar type listed)
  case bytes => exact not_doubled_of_notMem (by decide)
  case slice =>
    intro items single
    rwa [doubled_append_iff (by decide)]
  case map =>
    intro values single
    rwa [doubled_append_iff (by decide)]

/-- **The type of a field has no two stars in a row**, if no name brings a star along. -/
theorem not_doubled_fieldType {shape : Shape}
    (plain : ∀ name ∈ shape.references, '*' ∉ name.toList) (required : Bool) :
    ¬ Doubled (fieldType shape required) := by
  have single := not_doubled_typeOf plain
  -- a star is put in front of the name of a model, or of a text that starts with no star
  rcases reference_cases shape with ⟨name, rfl⟩ | other
  · have own : '*' ∉ name.toList := plain name (Shape.mem_references_ref name)
    rw [fieldType_ref]
    exact not_doubled_pointer single fun start => own (start.subset (by decide))
  · cases required with
    | true => rwa [fieldType_true other]
    | false =>
        rw [fieldType_false other]
        split
        · exact single
        · rename_i unknown
          rw [isNilable_iff, not_or, not_or] at unknown
          exact not_doubled_pointer single unknown.2.1

/-- **Types can say absence and null, with one pointer at most.** The type of a shape and that of
a field have no two stars in a row, if the names of models have none; what admits null has a value
for absence, and so has a field that may be absent, that admits null or that refers to a model. -/
theorem absence_exact {shape : Shape} (plain : ∀ name ∈ shape.references, '*' ∉ name.toList) :
    ¬ Doubled (typeOf shape) ∧ Nilable (typeOf (.nullable shape)) ∧
      (∀ required, ¬ Doubled (fieldType shape required)) ∧
      Nilable (fieldType shape false) ∧ Nilable (fieldType (.nullable shape) true) ∧
      ∀ name, Nilable (fieldType (.ref name) true) := by
  have null : Nilable (typeOf (.nullable shape)) := nilable_orNull (typeOf shape)
  refine ⟨not_doubled_typeOf plain, null, not_doubled_fieldType plain,
    nilable_fieldType_false shape, ?_, fun name => nilable_fieldType_ref name true⟩
  rwa [fieldType_true rfl]

/-- Lists of pets by name, where null may stand at several places. -/
def nestedNull : Shape :=
  .nullable (.nullable (.object [] [] (.allowed (.array (.nullable (.nullable (.ref "Pet")))))))

theorem absence_nestedNull : (∀ name ∈ nestedNull.references, '*' ∉ name.toList) ∧
    ¬ Doubled (typeOf nestedNull) ∧ Nilable (typeOf (.nullable nestedNull)) ∧
      (∀ required, ¬ Doubled (fieldType nestedNull required)) ∧
      Nilable (fieldType nestedNull false) ∧ Nilable (fieldType (.nullable nestedNull) true) ∧
      ∀ name, Nilable (fieldType (.ref name) true) := by
  have plain : ∀ name ∈ nestedNull.references, '*' ∉ name.toList := by
    intro name mentioned
    have only : name = "Pet" := by
      simpa [nestedNull, Shape.mem_references, Shape.nodes, Shape.nodesOfProperties,
        Shape.nodesOfExtra] using mentioned
    rw [only]
    decide
  exact ⟨plain, absence_exact plain⟩

end ClientGen.Go
