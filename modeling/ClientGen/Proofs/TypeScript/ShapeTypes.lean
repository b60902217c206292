import ClientGen.Proofs.Naming.Runs
import ClientGen.Proofs.TypeScript.Grouping
import ClientGen.Proofs.TypeScript.Names

/-!
# The types of shapes are read with their grouping

A shape whose unions and intersections are not empty, and whose references are names that a type can
have, becomes a type that can be read.

* `Json.InRange` — a value whose number is one that documents can hold.
* `Shape.Printable` — the shapes whose types can be read.
* `TypeScript.readable_typeOf` — their types are readable.
* `TypeScript.type?_typeOf` — the text of such a type denotes a type with the same flat form.
-/

namespace ClientGen

/-! ## Shapes that can be printed -/

/-- **A number that documents can hold**: an integer of sixty-four bits with or without a sign, or a
number of the floating-point format. -/
def Json.Number.InRange : Json.Number → Prop
  | .int i => -2 ^ 63 ≤ i ∧ i < 2 ^ 64
  | .float x => x.Canonical

/-- A value that is no number, or one that documents can hold. -/
def Json.InRange (value : Json) : Prop :=
  ∀ n, value = .number n → n.InRange

/-- **The shapes whose types can be read**, over an alphabet of identifiers. -/
structure Shape.Printable (alphabet : TypeScript.Alphabet) (shape : Shape) : Prop where
  /-- No union is empty. -/
  unions : .union [] ∉ shape.nodes
  /-- No intersection is empty. -/
  intersections : .intersection [] ∉ shape.nodes
  /-- The names of models are names that a type can have. -/
  names : ∀ name, .ref name ∈ shape.nodes → alphabet.TypeName name
  /-- Literals are values of documents. -/
  literals : ∀ value, .literal value ∈ shape.nodes → value.InRange
  /-- Enumerations list values of documents. -/
  enumerations : ∀ values, .enumeration values ∈ shape.nodes → ∀ value ∈ values, value.InRange

/-- What holds of a shape holds of the shapes directly inside. -/
theorem Shape.Printable.child {alphabet : TypeScript.Alphabet} {shape child : Shape}
    (printable : shape.Printable alphabet) (member : child ∈ shape.children) :
    child.Printable alphabet := by
  have inside {node : Shape} (inner : node ∈ child.nodes) : node ∈ shape.nodes := by
    rw [Shape.nodes_eq]
    exact List.mem_cons_of_mem _ (List.mem_flatMap.mpr ⟨child, member, inner⟩)
  constructor
  · exact fun empty => printable.unions (inside empty)
  · exact fun empty => printable.intersections (inside empty)
  · exact fun name used => printable.names name (inside used)
  · exact fun value used => printable.literals value (inside used)
  · exact fun values used => printable.enumerations values (inside used)

namespace TypeScript

variable {alphabet : Alphabet}

/-! ## Literals -/

/-- The literal of a value of a document has a text of its own. -/
theorem sound_of_ofJson? {value : Json} {l : Literal} (inRange : value.InRange)
    (found : Literal.ofJson? value = some l) : l.Sound := by
  cases value with
  | null =>
      obtain rfl := Option.some.inj found
      trivial
  | bool b =>
      obtain rfl := Option.some.inj found
      trivial
  | string s =>
      obtain rfl := Option.some.inj found
      trivial
  | number n =>
      have bounds := inRange n rfl
      cases n with
      | int i =>
          obtain ⟨lower, upper⟩ := bounds
          rw [Literal.ofJson?] at found
          by_cases small : i < twoTo 63
          · rw [if_pos small] at found
            obtain rfl := Option.some.inj found
            have half : ((twoTo 63 : Nat) : Int) = 2 ^ 63 := rfl
            rw [half] at small
            show i.natAbs < 2 ^ 64
            omega
          · rw [if_neg small] at found
            obtain ⟨x, nearest, rfl⟩ := Option.map_eq_some_iff.mp found
            have fits : i.toNat < 2 ^ 64 := by omega
            obtain ⟨y, same, -, canonical⟩ := Decimal.Binary64.exists_ofNat? fits
            obtain rfl := Option.some.inj (same.symm.trans nearest)
            exact canonical
      | float x =>
          obtain rfl := Option.some.inj found
          exact bounds
  | array items => cases found
  | object members => cases found

theorem readable_unknown : Readable alphabet .unknown :=
  .primitive .unknown

theorem readable_literalType {value : Json} (inRange : value.InRange) :
    Readable alphabet (literalType value) := by
  unfold literalType
  split
  · rename_i found
    exact .literal (sound_of_ofJson? inRange found)
  · exact readable_unknown

/-- **The type of an enumeration is readable.** -/
theorem readable_enumerationType {values : List Json} (inRange : ∀ value ∈ values, value.InRange) :
    Readable alphabet (enumerationType values) := by
  have sound : ∀ l ∈ literals values, l.Sound := by
    intro l member
    obtain ⟨value, listed, found⟩ := List.mem_filterMap.mp (Naming.mem_of_mem_eraseReps member)
    exact sound_of_ofJson? (inRange value listed) found
  unfold enumerationType
  generalize literals values = ls at sound
  split
  · exact readable_unknown
  · exact .literal (sound _ (List.mem_singleton_self _))
  · rename_i nonempty _
    refine .union (fun empty => nonempty (List.map_eq_nil_iff.mp empty)) fun type member => ?_
    obtain ⟨l, listed, rfl⟩ := List.mem_map.mp member
    exact .literal (sound l listed)

/-! ## Null and objects -/

theorem readable_null : Readable alphabet .null :=
  .literal trivial

/-- **A readable type stays readable when it admits null as well.** -/
theorem Readable.orNull {type : TypeExpr} (readable : Readable alphabet type) :
    Readable alphabet type.orNull := by
  unfold TypeExpr.orNull
  split
  · rename_i members
    split
    · exact readable
    · cases readable with
      | union nonempty each =>
          refine .union (List.append_ne_nil_of_left_ne_nil nonempty _) fun type member => ?_
          rcases List.mem_append.mp member with listed | other
          · exact each type listed
          · rw [List.mem_singleton.mp other]
            exact readable_null
  · exact readable_null
  · refine .union (List.cons_ne_nil _ _) fun type member => ?_
    rcases List.mem_cons.mp member with rfl | other
    · exact readable
    · rw [List.mem_singleton.mp other]
      exact readable_null

/-- **The type of objects is readable**, whether it is one type or two. -/
theorem readable_objectType {types : OrderedMap TypeExpr} {required : List String}
    {extra : Extra TypeExpr} (each : ∀ entry ∈ types, Readable alphabet entry.2)
    (further : ∀ type ∈ extra.allowed?, Readable alphabet type) :
    Readable alphabet (objectType types required extra) := by
  have bare : ∀ p ∈ properties types required, p.doc = none := by
    intro p member
    obtain ⟨entry, -, rfl⟩ := List.mem_map.mp member
    rfl
  have listed : ∀ p ∈ properties types required, Readable alphabet p.type := by
    intro p member
    obtain ⟨entry, inside, rfl⟩ := List.mem_map.mp member
    exact each entry inside
  unfold objectType
  simp only
  split
  · refine .intersection (List.cons_ne_nil _ _) fun part member => ?_
    rcases List.mem_cons.mp member with rfl | other
    · exact .object bare listed nofun
    · rw [List.mem_singleton.mp other]
      exact .object nofun nofun further
  · exact .object bare listed further

/-! ## Shapes -/

/-- **The type of a printable shape is readable.** -/
theorem readable_typeOf {shape : Shape} (printable : shape.Printable alphabet) :
    Readable alphabet (typeOf shape) := by
  induction shape using Shape.children_induction with
  | step shape ih =>
      have inner : ∀ child ∈ shape.children, Readable alphabet (typeOf child) :=
        fun child member => ih child member (printable.child member)
      have own := Shape.self_mem_nodes shape
      cases shape with
      | primitive type => exact .primitive _
      | literal value => exact readable_literalType (printable.literals value own)
      | enumeration values => exact readable_enumerationType (printable.enumerations values own)
      | array items => exact .array (inner items (List.mem_singleton_self _))
      | object properties required extra =>
          rw [typeOf_object]
          refine readable_objectType (fun entry member => ?_) fun type member => ?_
          · obtain ⟨p, listed, rfl⟩ := List.mem_map.mp member
            exact inner p.2 (List.mem_append_left _ (List.mem_map_of_mem listed))
          · cases extra with
            | unstated => cases member
            | forbidden => cases member
            | allowed values =>
                obtain rfl := Option.some.inj member
                refine inner values (List.mem_append_right _ ?_)
                exact List.mem_singleton_self _
      | union variants =>
          show Readable alphabet (.union (Shape.foldAll typing variants))
          rw [Shape.foldAll_eq_map]
          refine .union (fun empty => ?_) fun type member => ?_
          · obtain rfl := List.map_eq_nil_iff.mp empty
            exact printable.unions own
          · obtain ⟨variant, listed, rfl⟩ := List.mem_map.mp member
            exact inner variant listed
      | intersection parts =>
          show Readable alphabet (.intersection (Shape.foldAll typing parts))
          rw [Shape.foldAll_eq_map]
          refine .intersection (fun empty => ?_) fun type member => ?_
          · obtain rfl := List.map_eq_nil_iff.mp empty
            exact printable.intersections own
          · obtain ⟨part, listed, rfl⟩ := List.mem_map.mp member
            exact inner part listed
      | ref name => exact .ref (printable.names name own)
      | nullable inside => exact (inner inside (List.mem_singleton_self _)).orNull
      | binary =>
          exact .ref
            ⟨Alphabet.names_of_plain (by decide), by decide, by decide, by decide⟩
      | unknown => exact readable_unknown

/-- **The printer of types preserves grouping.** The text of the type of a printable shape denotes a
type, and that type has the same flat form as the type that was printed. -/
theorem type?_typeOf {alphabet : Alphabet} {shape : Shape} (printable : shape.Printable alphabet) :
    ∃ type, alphabet.type? (typeOf shape).text = some type ∧ type.flat = (typeOf shape).flat :=
  Alphabet.exists_type?_text (readable_typeOf printable)

/-- The identifiers without a character beyond ASCII. -/
def asciiAlphabet : Alphabet where
  starts := isIdentifierStart
  continues := isIdentifierPart
  starts_ascii _ _ := rfl
  continues_ascii _ _ := rfl

/-- An array whose items may be null and else are an intersection: of a union with a union of one
member inside, and of an object type that takes two types to write. -/
def nestedGroups : Shape :=
  .array (.nullable (.intersection
    [.union [.ref "Pet", .array (.union [.ref "Dog"])],
      .object
        [("owner", .ref "Pet"), ("first-name", .enumeration
          [.string "a | b", .number (.int (-7)), .number (.float ⟨true, 5 * 2 ^ 50, -51⟩)])]
        ["owner"] (.allowed (.ref "Dog"))]))

theorem printable_nestedGroups : nestedGroups.Printable asciiAlphabet := by
  have named {name : String} (plain : needsBrackets name = false)
      (free : name ∉ wordTypes.map (·.1) ∧ name ∉ otherTypes ∧ name ∉ keywords) :
      asciiAlphabet.TypeName name :=
    ⟨Alphabet.names_of_plain plain, free.1, free.2.1, free.2.2⟩
  constructor
  · simp [nestedGroups, Shape.nodes, Shape.nodesOfAll, Shape.nodesOfProperties, Shape.nodesOfExtra]
  · simp [nestedGroups, Shape.nodes, Shape.nodesOfAll, Shape.nodesOfProperties, Shape.nodesOfExtra]
  · intro name used
    simp [nestedGroups, Shape.nodes, Shape.nodesOfAll, Shape.nodesOfProperties,
      Shape.nodesOfExtra] at used
    rcases used with rfl | rfl | rfl | rfl
    all_goals exact named (by decide) (by decide)
  · simp [nestedGroups, Shape.nodes, Shape.nodesOfAll, Shape.nodesOfProperties, Shape.nodesOfExtra]
  · intro values used value listed n number
    simp [nestedGroups, Shape.nodes, Shape.nodesOfAll, Shape.nodesOfProperties,
      Shape.nodesOfExtra] at used
    subst used number
    simp at listed
    rcases listed with rfl | rfl
    · exact ⟨by decide, by decide⟩
    · exact ⟨by decide, by decide, by decide, .inl (by decide)⟩

theorem type?_nestedGroups : nestedGroups.Printable asciiAlphabet ∧
    ∃ type, asciiAlphabet.type? (typeOf nestedGroups).text = some type ∧
      type.flat = (typeOf nestedGroups).flat :=
  ⟨printable_nestedGroups, type?_typeOf printable_nestedGroups⟩

end TypeScript

end ClientGen
