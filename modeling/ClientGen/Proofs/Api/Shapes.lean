import ClientGen.Api.Printer
import ClientGen.Api.ShapeReader
import ClientGen.Proofs.Json.Canonical
import ClientGen.Proofs.Json.Readers
import ClientGen.Proofs.Json.Texts
import ClientGen.Proofs.Shape.Nodes

/-!
# Shapes that are written and read

A shape is written as an object that starts with its kind, so the reader knows the parts of the
shape before it meets them.

* `Shape.Storable` — shapes that have a text: the names of properties are distinct, and the values
  inside are canonical, with numbers that are read as they were written.
* `Shape.Orderly` — the same without the condition on numbers.
* `Shape.kind`, `Shape.members` — the kind of a shape, and the members after it.
* `Shape.ofJson_toJson` — the shape of a written shape.
* `Shape.read_toJson` — the shape at a place of a text.
-/

namespace ClientGen

/-- **A value that has a text**: it is in canonical form, that is, its objects have their names once
and in ascending order, and its numbers are read as they were written. -/
def Json.Storable (v : Json) : Prop :=
  v.canonical = v ∧ v.Faithful

namespace Shape

/-! ## Shapes that have a text -/

/-- What storing a shape asks of the shape itself, apart from the shapes inside it. -/
def OwnStorable : Shape → Prop
  | .literal value => value.Storable
  | .enumeration values => ∀ value ∈ values, value.Storable
  | .object properties _ _ => OrderedMap.Distinct properties
  | _ => True

/-- **A shape that has a text**: each of its nodes can be stored. -/
def Storable (shape : Shape) : Prop :=
  ∀ node ∈ shape.nodes, node.OwnStorable

/-- What reading a written shape asks of the shape itself, apart from the shapes inside it. -/
def OwnOrderly : Shape → Prop
  | .literal value => value.canonical = value
  | .enumeration values => ∀ value ∈ values, value.canonical = value
  | .object properties _ _ => OrderedMap.Distinct properties
  | _ => True

/-- **A shape in which nothing stands twice**: the names of properties are distinct, and the values
inside are canonical. -/
def Orderly (shape : Shape) : Prop :=
  ∀ node ∈ shape.nodes, node.OwnOrderly

theorem orderly_iff {shape : Shape} :
    shape.Orderly ↔ shape.OwnOrderly ∧ ∀ child ∈ shape.children, child.Orderly :=
  forall_nodes_iff

theorem Storable.orderly {shape : Shape} (storable : shape.Storable) : shape.Orderly := by
  intro node member
  have own := storable node member
  cases node with
  | literal value => exact own.1
  | enumeration values => exact fun value listed => (own value listed).1
  | object properties required extra => exact own
  | _ => trivial

/-! ## Kinds and members -/

/-- The kind of a shape. -/
def kind : Shape → Kind
  | .primitive _ => .primitive
  | .literal _ => .literal
  | .enumeration _ => .enumeration
  | .array _ => .array
  | .object _ _ _ => .object
  | .union _ => .union
  | .intersection _ => .intersection
  | .ref _ => .ref
  | .nullable _ => .nullable
  | .binary => .binary
  | .unknown => .unknown

/-- The members that are written after the kind. -/
def members : Shape → List (String × Json)
  | .primitive type => [("type", .string type.name)]
  | .literal value => [("value", value)]
  | .enumeration values => [("values", .array values)]
  | .array items => [("items", items.toJson)]
  | .object properties required extra =>
    ("properties", .object (OrderedMap.mapValues toJson properties)) ::
      ("required", .ofStrings required) :: extraMember (extra.map toJson)
  | .union variants => [("variants", .array (variants.map toJson))]
  | .intersection parts => [("parts", .array (parts.map toJson))]
  | .ref name => [("name", .string name)]
  | .nullable inner => [("inner", inner.toJson)]
  | .binary => []
  | .unknown => []

/-- **A shape is written as its kind and its members.** -/
theorem toJson_eq (shape : Shape) : shape.toJson = tagged shape.kind.name shape.members := by
  unfold toJson
  cases shape with
  | object properties required extra =>
      rw [fold, foldProperties_eq_mapValues, foldExtra_eq_map]
      rfl
  | union variants =>
      rw [fold, foldAll_eq_map]
      rfl
  | intersection parts =>
      rw [fold, foldAll_eq_map]
      rfl
  | _ => rfl

/-! ## Parts -/

theorem allOf_map {shapes : List Shape}
    (reads : ∀ shape ∈ shapes, ofJson shape.toJson = .ok shape) :
    allOf (shapes.map toJson) = .ok shapes := by
  induction shapes with
  | nil => rfl
  | cons shape shapes ih =>
      have rest := ih fun next member => reads next (List.mem_cons_of_mem _ member)
      rw [List.map_cons, allOf, reads shape (List.mem_cons_self ..), rest]
      rfl

theorem eachOf_mapValues {properties : OrderedMap Shape}
    (reads : ∀ property ∈ properties, ofJson property.2.toJson = .ok property.2) :
    eachOf (OrderedMap.mapValues toJson properties) = .ok properties := by
  induction properties with
  | nil => rfl
  | cons property properties ih =>
      have rest := ih fun next member => reads next (List.mem_cons_of_mem _ member)
      have first := reads property (List.mem_cons_self ..)
      show eachOf ((property.1, property.2.toJson) :: OrderedMap.mapValues toJson properties) = _
      rw [eachOf, first, rest]
      rfl

theorem texts_ofStrings (names : List String) : texts (.ofStrings names) = .ok names := by
  show (names.map Json.string).mapM text = _
  induction names with
  | nil => rfl
  | cons name names ih =>
      rw [List.map_cons, List.mapM_cons, ih]
      rfl

theorem primitiveType_name (type : Primitive) : primitiveType (.string type.name) = .ok type := by
  cases type <;> rfl

theorem extraOf_toJson (shape : Shape) (read : Unit → Except Mismatch Shape)
    (reads : read () = .ok shape) : extraOf shape.toJson read = .ok (.allowed shape) := by
  rw [toJson_eq, tagged, extraOf]
  · rw [reads]
  all_goals simp

/-- The readings of a value that stands in an object. -/
def Readings.of (v : Json) : Readings :=
  ⟨v, fun _ => ofJson v, fun _ => shapesOf v, fun _ => namedOf v⟩

/-- A part that has not been seen is added. -/
theorem ofMembers_cons {kind : Kind} {name : String} {v : Json} {parts next : Parts}
    {members : List (String × Json)} (own : kind.parts.contains name)
    (fresh : ¬ parts.seen.contains name)
    (added : parts.add kind name (.of v) = .ok next) :
    ofMembers kind parts ((name, v) :: members) = ofMembers kind next members := by
  rw [ofMembers, if_pos own, if_neg fresh, ← Readings.of, added]
  rfl

/-- The parts of a shape that has only one part. -/
def Parts.single (name : String) (shape : Shape) : Parts :=
  { Parts.blank with seen := [name], whole := some shape }

/-- A shape that has only one part is read from that part. -/
theorem ofMembers_single {kind : Kind} {name : String} {v : Json} {shape : Shape}
    (single : kind.parts = [name])
    (added : Parts.blank.add kind name (.of v) = .ok (.single name shape)) :
    ofMembers kind Parts.blank [(name, v)] = .ok shape := by
  have own : kind.parts.contains name := by simp [single]
  have complete : (Parts.single name shape).missing? kind = none := by
    simp [Parts.missing?, Parts.single, single]
  rw [ofMembers_cons own (by simp [Parts.blank]) added, ofMembers]
  unfold Parts.shape
  rw [complete]
  cases kind with
  | object => cases single
  | binary => cases single
  | _ => rfl

theorem Parts.add_properties {v : Json} {properties : List (String × Shape)} (parts : Parts)
    (named : namedOf v = .ok properties) :
    parts.add .object "properties" (.of v) =
      .ok { parts with seen := "properties" :: parts.seen, properties := properties } := by
  show (do return { parts with seen := "properties" :: parts.seen, properties := ← namedOf v }) = _
  rw [named]
  rfl

theorem Parts.add_required {v : Json} {required : List String} (parts : Parts)
    (names : texts v = .ok required) :
    parts.add .object "required" (.of v) =
      .ok { parts with seen := "required" :: parts.seen, required := required } := by
  show (do return { parts with seen := "required" :: parts.seen, required := ← texts v }) = _
  rw [names]
  rfl

theorem Parts.add_extra {v : Json} {extra : Extra Shape} (parts : Parts)
    (further : extraOf v (fun _ => ofJson v) = .ok extra) :
    parts.add .object "additionalProperties" (.of v) =
      .ok { parts with seen := "additionalProperties" :: parts.seen, extra := extra } := by
  show (do return { parts with
    seen := "additionalProperties" :: parts.seen, extra := ← extraOf v fun _ => ofJson v }) = _
  rw [further]
  rfl

/-- The parts of an object are read from its two or three members. -/
theorem ofMembers_object {properties : OrderedMap Shape} {required : List String}
    {extra : Extra Shape} (distinct : properties.Distinct)
    (named : ∀ property ∈ properties, ofJson property.2.toJson = .ok property.2)
    (further : ∀ values ∈ extra.allowed?, ofJson values.toJson = .ok values) :
    ofMembers .object Parts.blank (object properties required extra).members =
      .ok (.object properties required extra) := by
  have listed : namedOf (.object (OrderedMap.mapValues toJson properties)) = .ok properties := by
    rw [namedOf, eachOf_mapValues named]
  rw [members, ofMembers_cons rfl (by simp [Parts.blank]) (Parts.add_properties _ listed),
    ofMembers_cons rfl (by simp [Parts.blank]) (Parts.add_required _ (texts_ofStrings required))]
  have whole (extra : Extra Shape) :
      (.ok (object (OrderedMap.ofEntries properties) required extra) : Except Mismatch Shape) =
        .ok (object properties required extra) := by
    rw [distinct.ofEntries_eq]
  cases extra with
  | unstated => exact whole .unstated
  | forbidden =>
      refine (ofMembers_cons rfl (by simp [Parts.blank]) (Parts.add_extra _ rfl)).trans ?_
      exact whole .forbidden
  | allowed values =>
      have read := extraOf_toJson values (fun _ => ofJson values.toJson) (further values rfl)
      refine (ofMembers_cons rfl (by simp [Parts.blank]) (Parts.add_extra _ read)).trans ?_
      exact whole (.allowed values)

/-- **The members of a shape are read as the shape**, if the shapes inside it are read. -/
theorem ofMembers_members {shape : Shape} (own : shape.OwnOrderly)
    (inner : ∀ child ∈ shape.children, ofJson child.toJson = .ok child) :
    ofMembers shape.kind Parts.blank shape.members = .ok shape := by
  cases shape with
  | primitive type =>
      refine ofMembers_single rfl ?_
      show (do return Parts.single "type" (.primitive (← primitiveType (.string type.name)))) = _
      rw [primitiveType_name]
      rfl
  | literal value =>
      refine ofMembers_single rfl ?_
      have canonical : value.canonical = value := own
      show Except.ok (Parts.single "value" (.literal value.canonical)) = _
      rw [canonical]
  | enumeration values =>
      refine ofMembers_single rfl ?_
      show Except.ok (Parts.single "values" (.enumeration (Json.canonicalItems values))) = _
      rw [Json.canonicalItems_eq own]
  | array items =>
      refine ofMembers_single rfl ?_
      show (do return Parts.single "items" (.array (← ofJson items.toJson))) = _
      rw [inner items (List.mem_cons_self ..)]
      rfl
  | object properties required extra =>
      refine ofMembers_object own (fun property member => ?_) fun values member => ?_
      · exact inner _ (List.mem_append_left _ (List.mem_map_of_mem member))
      · exact inner _ (List.mem_append_right _ (Option.mem_toList.mpr member))
  | union variants =>
      refine ofMembers_single rfl ?_
      have listed : allOf (variants.map toJson) = .ok variants := allOf_map inner
      show (do return Parts.single "variants" (.union (← shapesOf (.array _)))) = _
      rw [shapesOf, listed]
      rfl
  | intersection parts =>
      refine ofMembers_single rfl ?_
      have listed : allOf (parts.map toJson) = .ok parts := allOf_map inner
      show (do return Parts.single "parts" (.intersection (← shapesOf (.array _)))) = _
      rw [shapesOf, listed]
      rfl
  | ref name => exact ofMembers_single rfl rfl
  | nullable inside =>
      refine ofMembers_single rfl ?_
      show (do return Parts.single "inner" (.nullable (← ofJson inside.toJson))) = _
      rw [inner inside (List.mem_cons_self ..)]
      rfl
  | binary => rfl
  | unknown => rfl

/-! ## Whole shapes -/

/-- The kind is passed over among the parts. -/
theorem ofMembers_kind (kind : Kind) (parts : Parts) (v : Json) (members : List (String × Json)) :
    ofMembers kind parts (("kind", v) :: members) = ofMembers kind parts members := by
  have other : ¬ kind.parts.contains "kind" := by
    cases kind <;> decide
  rw [ofMembers, if_neg other]

theorem kind_notMem_members (shape : Shape) : ∀ member ∈ shape.members, member.1 ≠ "kind" := by
  cases shape with
  | object properties required extra =>
      cases extra <;> simp [members, extraMember, Extra.map]
  | _ => simp [members]

theorem named_name (kind : Kind) : Kind.named kind.name = .ok kind := by
  cases kind <;> rfl

/-- The kind of a written shape. -/
theorem ofMembers_tagged (shape : Shape) :
    Kind.ofMembers (("kind", .string shape.kind.name) :: shape.members) = .ok shape.kind := by
  have others : shape.members.filter (·.1 == "kind") = [] := by
    refine List.filter_eq_nil_iff.mpr fun member inside => ?_
    simpa using kind_notMem_members shape member inside
  unfold Kind.ofMembers
  rw [List.filter_cons_of_pos rfl, others]
  exact named_name shape.kind

/-- **A written shape is read as the shape.** -/
theorem ofJson_toJson {shape : Shape} (orderly : shape.Orderly) :
    ofJson shape.toJson = .ok shape := by
  induction shape using children_induction with
  | step shape ih =>
      obtain ⟨own, inside⟩ := orderly_iff.mp orderly
      have inner : ∀ child ∈ shape.children, ofJson child.toJson = .ok child :=
        fun child member => ih child member (inside child member)
      rw [toJson_eq, tagged, ofJson, ofMembers_tagged]
      -- the kind has been found among all members, and then stands among the parts once more
      show ofMembers shape.kind Parts.blank _ = _
      rw [ofMembers_kind, ofMembers_members own inner]

/-- The kind comes first. -/
theorem readMembers_kind (room : Nat) (kind : Kind)
    (rest : List (Json.Lexeme String × Json.Source)) :
    readMembers room none [] ((.pure "kind", .string (.pure kind.name)) :: rest) =
      readMembers room (some kind) [] rest := by
  have found : readKind ⟨.string (.pure kind.name), room⟩ = .ok kind := by
    show (Kind.named kind.name).mapError _ = _
    rw [named_name]
    rfl
  rw [readMembers]
  show (do
    let kind ← readKind ⟨.string (.pure kind.name), room⟩
    readMembers room (some kind) [] rest) = _
  rw [found]
  rfl

/-- The members after the kind are kept in their order. -/
theorem readMembers_source {room : Nat} (kind : Kind) (before : List (String × Json))
    {members : List (String × Json)} (others : ∀ member ∈ members, member.1 ≠ "kind")
    (fits : Json.membersDepth members ≤ room) :
    readMembers room (some kind) before (Json.memberSources members) =
      .ok (some kind, before.reverse ++ members) := by
  induction members generalizing before with
  | nil => rw [Json.memberSources, readMembers, List.append_nil]
  | cons member members ih =>
      obtain ⟨name, v⟩ := member
      rw [Json.membersDepth] at fits
      have other : ¬ (name == "kind") := by
        simpa using others (name, v) (List.mem_cons_self ..)
      have value := Json.Source.value_source v room (by omega)
      have rest := ih ((name, v) :: before)
        (fun next inside => others next (List.mem_cons_of_mem _ inside)) (by omega)
      rw [Json.memberSources, readMembers]
      simp only [Json.Lexeme.read_pure, bind, Except.bind, if_neg other, value]
      rw [rest, List.reverse_cons, List.append_assoc]
      rfl

/-- **The shape at a place of a text** where a written shape stands. -/
theorem read_toJson {shape : Shape} (orderly : shape.Orderly) {room : Nat}
    (fits : shape.toJson.depth ≤ room) : read ⟨shape.toJson.source, room⟩ = .ok shape := by
  obtain ⟨own, inside⟩ := orderly_iff.mp orderly
  have parts := ofMembers_members own fun child member => ofJson_toJson (inside child member)
  rw [toJson_eq, tagged, Json.depth, Json.membersDepth] at fits
  obtain ⟨inner, rfl⟩ : ∃ inner, room = inner + 1 := ⟨room - 1, by omega⟩
  have others := readMembers_source shape.kind [] (kind_notMem_members shape)
    (show Json.membersDepth shape.members ≤ inner by omega)
  have tree : shape.toJson.source = .object
      ((.pure "kind", .string (.pure shape.kind.name)) :: Json.memberSources shape.members)
        none := by
    rw [toJson_eq, tagged, Json.source, Json.memberSources, Json.source]
  unfold read
  simp only [tree, Json.enter, bind, Except.bind, readMembers_kind, others, Json.check]
  rw [List.reverse_nil, List.nil_append, parts]
  rfl

/-! ## Numbers -/

/-- What holds of the numbers of the values in a single node. -/
def OwnEach (P : Json.Number → Prop) : Shape → Prop
  | .literal value => value.Each P
  | .enumeration values => ∀ value ∈ values, value.Each P
  | _ => True

/-- **What holds of the numbers of the values** in every node. -/
def Each (P : Json.Number → Prop) (shape : Shape) : Prop :=
  ∀ node ∈ shape.nodes, node.OwnEach P

theorem each_iff {P : Json.Number → Prop} {shape : Shape} :
    shape.Each P ↔ shape.OwnEach P ∧ ∀ child ∈ shape.children, child.Each P :=
  forall_nodes_iff

theorem Storable.each {shape : Shape} (storable : shape.Storable) :
    shape.Each Json.Number.Faithful := by
  intro node member
  have own := storable node member
  cases node with
  | literal value => exact own.2
  | enumeration values => exact fun value listed => (own value listed).2
  | _ => trivial

/-- **A written shape has no numbers but those of its values.** -/
theorem each_toJson {P : Json.Number → Prop} {shape : Shape} (each : shape.Each P) :
    shape.toJson.Each P := by
  induction shape using children_induction with
  | step shape ih =>
      obtain ⟨own, inside⟩ := each_iff.mp each
      have inner : ∀ child ∈ shape.children, child.toJson.Each P :=
        fun child member => ih child member (inside child member)
      rw [toJson_eq, tagged]
      refine Json.each_object (List.forall_mem_cons.mpr ⟨Json.each_string _, ?_⟩)
      cases shape with
      | primitive type => simpa [members] using Json.each_string _
      | literal value =>
          have value : value.Each P := own
          simpa [members] using value
      | enumeration values => simpa [members] using Json.each_array own
      | array items => simpa [members] using inner items (List.mem_cons_self ..)
      | object properties required extra =>
          refine List.forall_mem_cons.mpr ⟨Json.each_object ?_, ?_⟩
          · intro member written
            obtain ⟨property, listed, rfl⟩ := List.mem_map.mp written
            exact inner property.2 (List.mem_append_left _ (List.mem_map_of_mem listed))
          · refine List.forall_mem_cons.mpr ⟨Json.each_ofStrings required, ?_⟩
            cases extra with
            | unstated => exact nofun
            | forbidden => simpa [extraMember, Extra.map] using Json.each_bool false
            | allowed values =>
                have further := inner values (List.mem_append_right _ (List.mem_cons_self ..))
                simpa [extraMember, Extra.map] using further
      | union variants =>
          have all : ∀ variant ∈ variants, variant.toJson.Each P := inner
          simpa [members] using Json.each_array (List.forall_mem_map.mpr all)
      | intersection parts =>
          have all : ∀ part ∈ parts, part.toJson.Each P := inner
          simpa [members] using Json.each_array (List.forall_mem_map.mpr all)
      | ref name => simpa [members] using Json.each_string name
      | nullable other => simpa [members] using inner other (List.mem_cons_self ..)
      | binary => simp [members]
      | unknown => simp [members]

end Shape

end ClientGen
