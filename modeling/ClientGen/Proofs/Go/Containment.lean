import ClientGen.Proofs.Go.Outlines

/-!
# Types that contain other types

A type of Go contains what stands in it by value, and a type that contains itself has no size. A
field that refers to a model is a pointer, and so is everything that may be null; what is left is a
model that is nothing but a reference, which becomes a type that is defined as another one.

* `Refers`, `Contains` — models that are bare references, and types that stand in types by value.
* `named_mem_parts_iff` — a definition has the name of a model in it only if it is a bare reference.
* `Uncaptured` — no bare reference has a name that is given to a model instead of its own.
* `Contained` — how the types of a client contain each other.
* `containment_exact` — the types of every client do.

Models that are called like something in the request code get names that no model has. A reference
that stands for no model is not asked about these names, and can get to stand for one.
-/

namespace ClientGen.Go

open Text Relation

/-! ## Containment -/

/-- **A model is a bare reference** to a name. -/
def Refers (models : List Model) (name other : String) : Prop :=
  ∃ m ∈ models, m.name = name ∧ m.shape = .ref other

/-- **A type contains another one by value**: the name stands in it, and not under a pointer, a
slice or a map. -/
def Contains (types : List Outline) (name other : String) : Prop :=
  ∃ type ∈ types, type.name = name ∧ .named other ∈ type.parts

/-- Nothing leads back to itself. -/
def Acyclic (step : String → String → Prop) : Prop :=
  ∀ name, ¬ TransGen step name name

section Names

variable {name : String}

/-- The names of models are read as names. -/
theorem read_of_isName (isName : Naming.IsName isAsciiCapital name.toList) :
    TypeExpr.read name.toList = .named name := by
  obtain ⟨c, head, start⟩ := isName.exists_head
  rw [TypeExpr.read_of_plain]
  intro d first listed
  obtain rfl : c = d := Option.some.inj (head.symm.trans first)
  rw [List.mem_cons, List.mem_pair] at listed
  rcases listed with rfl | rfl | rfl <;> exact absurd start (by decide)

/-- No model is called like a scalar type. -/
theorem notMem_scalarTypes (isName : Naming.IsName isAsciiCapital name.toList) :
    name ∉ scalarTypes := by
  have small : ∀ type ∈ scalarTypes,
      type.toList.head?.any (fun c => isAsciiCapital c || c == '_') = false := by decide
  obtain ⟨c, head, start⟩ := isName.exists_head
  intro listed
  have strange := small name listed
  rw [head, Option.any_some, Bool.or_eq_false_iff, beq_eq_false_iff_ne] at strange
  rcases start with capital | underscore
  · exact Bool.false_ne_true (strange.1.symm.trans capital)
  · exact strange.2 underscore

/-- No type but a bare reference is read as the name of a model. -/
theorem Outside.read_ne {type : String} (outside : Outside type)
    (isName : Naming.IsName isAsciiCapital name.toList) :
    TypeExpr.read type.toList ≠ .named name := by
  cases outside with
  | scalar listed =>
      rw [read_scalar type listed]
      rintro same
      cases same
      exact notMem_scalarTypes isName listed
  | pointer target =>
      rw [TypeExpr.read_pointer]
      nofun
  | slice items =>
      rw [TypeExpr.read_slice]
      nofun
  | map values =>
      rw [TypeExpr.read_map]
      nofun

/-- What stands in a definition that is no bare reference. -/
theorem outside_of_mem_parts {shape : Shape} (other : isReference shape = false) {part : TypeExpr}
    (member : part ∈ parts shape) : ∃ type, Outside type ∧ part = .read type.toList := by
  have alone (same : parts shape = [.read (typeOf shape).toList]) :
      ∃ type, Outside type ∧ part = .read type.toList := by
    rw [same, List.mem_singleton] at member
    exact ⟨typeOf shape, outside_typeOf other, member⟩
  cases shape with
  | object properties required extra =>
      by_cases struct : isStruct properties extra
      · rw [parts, if_pos struct] at member
        obtain ⟨f, listed, rfl⟩ := List.mem_map.mp member
        obtain ⟨p, -, type, -⟩ := exists_of_mem_fields listed
        exact ⟨f.type, type ▸ outside_fieldType .., rfl⟩
      · exact alone (by rw [parts, if_neg struct])
  | ref name => cases other
  | _ => exact alone rfl

/-- **Only a bare reference has the name of a model in its definition**: the name that it refers
to. -/
theorem named_mem_parts_iff {shape : Shape}
    (references : ∀ name ∈ shape.references, Naming.IsName isAsciiCapital name.toList)
    (isName : Naming.IsName isAsciiCapital name.toList) :
    .named name ∈ parts shape ↔ shape = .ref name := by
  rcases reference_cases shape with ⟨target, rfl⟩ | other
  · have named := references target (Shape.mem_references_ref target)
    show _ ∈ [TypeExpr.read target.toList] ↔ _
    rw [read_of_isName named, List.mem_singleton, TypeExpr.named.injEq, Shape.ref.injEq, eq_comm]
  · constructor
    · intro member
      obtain ⟨type, outside, same⟩ := outside_of_mem_parts other member
      exact absurd same.symm (outside.read_ne isName)
    · rintro rfl
      cases other

end Names

/-- **Types contain the types of the models that theirs are bare references to.** -/
theorem contains_iff {models : List Model} (canonical : ∀ m ∈ models, Canonical m)
    {name other : String} (isName : Naming.IsName isAsciiCapital other.toList) :
    Contains (models.map outline) name other ↔ Refers models name other := by
  simp only [Contains, List.mem_map, exists_exists_and_eq_and]
  refine exists_congr fun m => and_congr_right fun listed => and_congr_right fun _ => ?_
  exact named_mem_parts_iff (canonical m listed).references isName

/-! ## New names -/

/-- The name of the type for a model. -/
def typeName (api : Api) (name : String) : String :=
  Shape.renamed (collisions api.models) name

/-- **No bare reference has a name that is given to a model** that gives up its own one. -/
def Uncaptured (api : Api) : Prop :=
  ∀ m ∈ api.models, ∀ name ∈ freeNames api.models, m.shape ≠ .ref name

section NewNames

variable {api : Api} {name other : String}

/-- A new name is kept, or it is one of those that no model has. -/
theorem typeName_cases (distinct : (api.models.map (·.name)).Nodup) (name : String) :
    typeName api name = name ∨ typeName api name ∈ freeNames api.models := by
  by_cases collides : name ∈ colliding api.models
  · exact .inr (List.of_mem_zip (renamed_of_mem distinct collides)).2
  · exact .inl (renamed_of_notMem distinct collides)

/-- Names that no model has are kept. -/
theorem typeName_of_notMem (distinct : (api.models.map (·.name)).Nodup)
    (strange : name ∉ api.models.map (·.name)) : typeName api name = name :=
  renamed_of_notMem distinct fun collides => strange (mem_colliding.mp collides).1

theorem isName_typeName (distinct : (api.models.map (·.name)).Nodup)
    (canonical : ∀ m ∈ api.models, Canonical m)
    (isName : Naming.IsName isAsciiCapital name.toList) :
    Naming.IsName isAsciiCapital (typeName api name).toList := by
  rcases typeName_cases distinct name with same | free
  · exact same.symm ▸ isName
  · refine Naming.isName_of_mem_uniqueAll (List.forall_mem_map.mpr fun old collides => ?_) free
    obtain ⟨m, listed, rfl⟩ := List.mem_map.mp (mem_colliding.mp collides).1
    rw [String.toList_append]
    exact (canonical m listed).name.append (List.all_eq_true.mp rfl)

/-- Models stay canonical. -/
theorem canonical_rename (distinct : (api.models.map (·.name)).Nodup)
    (canonical : ∀ m ∈ api.models, Canonical m) :
    ∀ m ∈ (api.rename (collisions api.models)).models, Canonical m := by
  refine List.forall_mem_map.mpr fun m listed => ?_
  obtain ⟨own, references⟩ := canonical m listed
  refine ⟨isName_typeName distinct canonical own, fun name mentioned => ?_⟩
  rw [Shape.references_rename, Naming.mem_ascending] at mentioned
  obtain ⟨old, stood, rfl⟩ := List.mem_map.mp mentioned
  exact isName_typeName distinct canonical (references old stood)

/-- Two names are the same in the package iff they are the same, or the first one is the new name of
the second one, which is the name of a model. -/
theorem typeName_eq_iff (distinct : (api.models.map (·.name)).Nodup)
    (listed : other ∈ api.models.map (·.name)) :
    typeName api name = typeName api other ↔ name = other ∨ name = typeName api other := by
  constructor
  · intro same
    by_cases own : name ∈ api.models.map (·.name)
    · exact .inl (injOn_renamed distinct own listed same)
    · exact .inr (typeName_of_notMem distinct own ▸ same)
  · rintro (rfl | rfl)
    · rfl
    · rcases typeName_cases distinct other with same | free
      · rw [same, same]
      · exact typeName_of_notMem distinct (notMem_of_mem_freeNames free).2

theorem rename_eq_ref_iff {shape : Shape} {newNames : List (String × String)} :
    shape.rename newNames = .ref other ↔
      ∃ name, shape = .ref name ∧ Shape.renamed newNames name = other := by
  have names : (shape.rename newNames).refName? =
      shape.refName?.map (Shape.renamed newNames) := Shape.refName?_rename shape
  rw [← Shape.refName?_eq_some, names, Option.map_eq_some_iff]
  simp only [Shape.refName?_eq_some]

/-- The bare references of the package are those of the models, with new names. -/
theorem refers_rename_iff :
    Refers (api.rename (collisions api.models)).models name other ↔
      ∃ m ∈ api.models, typeName api m.name = name ∧
        ∃ old, m.shape = .ref old ∧ typeName api old = other := by
  simp only [Refers, Api.rename, List.mem_map, exists_exists_and_eq_and, rename_eq_ref_iff]
  rfl

end NewNames

/-! ## The types of a client -/

/-- The types that the models of a client become. -/
def typesOf (api : Api) : List Outline :=
  (api.rename (collisions api.models)).models.map outline

/-- **How types contain each other**, told by the models that they belong to. -/
structure Contained (api : Api) (types : List Outline) : Prop where
  /-- There is one type for each model. -/
  names : types.map (·.name) = api.models.map fun m => typeName api m.name
  /-- A type contains another one iff its model is a bare reference to the model of the other one,
  or to the name that this model gets instead of its own. -/
  contains : ∀ m ∈ api.models, ∀ n ∈ api.models,
    (Contains types (typeName api m.name) (typeName api n.name) ↔
      m.shape = .ref n.name ∨ m.shape = .ref (typeName api n.name))
  /-- References that stand for no model apart: iff it is a bare reference to the other model. -/
  exactly : Uncaptured api → ∀ m ∈ api.models, ∀ n ∈ api.models,
    (Contains types (typeName api m.name) (typeName api n.name) ↔ m.shape = .ref n.name)
  /-- Then no type contains itself iff bare references never lead back. -/
  acyclic : Uncaptured api → (Acyclic (Contains types) ↔ Acyclic (Refers api.models))

section Client

variable {api : Api}

theorem names_typesOf (api : Api) :
    (typesOf api).map (·.name) = api.models.map fun m => typeName api m.name := by
  rw [typesOf, Api.rename, List.map_map, List.map_map]
  rfl

/-- What contains something is the type of a model. -/
theorem exists_model_of_contains {name other : String}
    (contains : Contains (typesOf api) name other) :
    ∃ m ∈ api.models, name = typeName api m.name := by
  obtain ⟨type, listed, rfl, -⟩ := contains
  have named : type.name ∈ (typesOf api).map (·.name) := List.mem_map_of_mem listed
  rw [names_typesOf] at named
  obtain ⟨m, member, same⟩ := List.mem_map.mp named
  exact ⟨m, member, same.symm⟩

variable (distinct : (api.models.map (·.name)).Nodup)
  (canonical : ∀ m ∈ api.models, Canonical m)

include distinct canonical

/-- What the types of a client contain, as far as it has the grammar of names. -/
theorem contains_typesOf_iff {name other : String}
    (isName : Naming.IsName isAsciiCapital other.toList) :
    Contains (typesOf api) name other ↔
      ∃ m ∈ api.models, typeName api m.name = name ∧
        ∃ old, m.shape = .ref old ∧ typeName api old = other :=
  (contains_iff (canonical_rename distinct canonical) isName).trans refers_rename_iff

/-- **A type contains another one** iff its model refers to the model or to its new name. -/
theorem contains_typeName_iff {m n : Model} (listed : m ∈ api.models)
    (alsoListed : n ∈ api.models) :
    Contains (typesOf api) (typeName api m.name) (typeName api n.name) ↔
      m.shape = .ref n.name ∨ m.shape = .ref (typeName api n.name) := by
  have isName := isName_typeName distinct canonical (canonical n alsoListed).name
  have inNames : n.name ∈ api.models.map (·.name) := List.mem_map_of_mem alsoListed
  rw [contains_typesOf_iff distinct canonical isName]
  constructor
  · rintro ⟨k, member, same, old, reference, target⟩
    have own := injOn_renamed distinct (List.mem_map_of_mem member) (List.mem_map_of_mem listed) same
    obtain rfl : k = m := List.inj_on_of_nodup_map distinct member listed own
    rcases (typeName_eq_iff distinct inNames).mp target with rfl | rfl
    · exact .inl reference
    · exact .inr reference
  · rintro (reference | reference)
    · exact ⟨m, listed, rfl, _, reference, rfl⟩
    · exact ⟨m, listed, rfl, _, reference, (typeName_eq_iff distinct inNames).mpr (.inr rfl)⟩

/-- Without references that stand for no model, it is a reference to the model itself. -/
theorem contains_typeName_iff_of_uncaptured (uncaptured : Uncaptured api) {m n : Model}
    (listed : m ∈ api.models) (alsoListed : n ∈ api.models) :
    Contains (typesOf api) (typeName api m.name) (typeName api n.name) ↔ m.shape = .ref n.name := by
  rw [contains_typeName_iff distinct canonical listed alsoListed, or_iff_left_of_imp]
  intro reference
  rcases typeName_cases distinct n.name with same | free
  · rwa [same] at reference
  · exact absurd reference (uncaptured m listed _ free)

/-- A bare reference is a type that contains another one. -/
theorem contains_of_refers {name other : String} (refers : Refers api.models name other) :
    Contains (typesOf api) (typeName api name) (typeName api other) := by
  obtain ⟨m, listed, rfl, reference⟩ := refers
  have mentioned : other ∈ m.shape.references := reference ▸ Shape.mem_references_ref other
  have isName := isName_typeName distinct canonical ((canonical m listed).references other mentioned)
  exact (contains_typesOf_iff distinct canonical isName).mpr
    ⟨m, listed, rfl, other, reference, rfl⟩

/-- **A way through types is a way through models.** -/
theorem refers_of_contains (uncaptured : Uncaptured api) {m n : Model} (listed : m ∈ api.models)
    (alsoListed : n ∈ api.models)
    (way : TransGen (Contains (typesOf api)) (typeName api m.name) (typeName api n.name)) :
    TransGen (Refers api.models) m.name n.name := by
  have step {m n : Model} (listed : m ∈ api.models) (alsoListed : n ∈ api.models)
      (contains : Contains (typesOf api) (typeName api m.name) (typeName api n.name)) :
      Refers api.models m.name n.name :=
    ⟨m, listed, rfl, (contains_typeName_iff_of_uncaptured distinct canonical uncaptured listed
      alsoListed).mp contains⟩
  generalize start : typeName api m.name = name at way
  induction way using TransGen.head_induction_on generalizing m with
  | single last => exact .single (step listed alsoListed (start ▸ last))
  | head first rest ih =>
      -- the way goes on, so what comes next is the type of a model
      obtain ⟨next, onwards, -⟩ := TransGen.head'_iff.mp rest
      obtain ⟨k, member, rfl⟩ := exists_model_of_contains onwards
      exact .head (step listed member (start ▸ first)) (ih member rfl)

/-- **The types of a client** contain each other as the models refer to each other. -/
theorem contained_typesOf : Contained api (typesOf api) := by
  refine {
    names := names_typesOf api
    contains := fun m listed n alsoListed =>
      contains_typeName_iff distinct canonical listed alsoListed
    exactly := fun uncaptured m listed n alsoListed =>
      contains_typeName_iff_of_uncaptured distinct canonical uncaptured listed alsoListed
    acyclic := fun uncaptured => ⟨?_, ?_⟩ }
  · intro finite name circle
    exact finite (typeName api name)
      (circle.lift (typeName api) fun _ _ => contains_of_refers distinct canonical)
  · intro finite name circle
    obtain ⟨next, first, -⟩ := TransGen.head'_iff.mp circle
    obtain ⟨m, listed, rfl⟩ := exists_model_of_contains first
    exact finite m.name (refers_of_contains distinct canonical uncaptured listed listed circle)

/-- The file of models that is generated declares these types. -/
theorem exists_models_file :
    ∃ generated text, Language.go.generate api none = .ok generated ∧
      ⟨"models.go", text⟩ ∈ generated ∧ outlines text = typesOf api := by
  have paths : ((files api).map (·.path)).Nodup :=
    show ["doc.go", "models.go", "client.go", "operations.go"].Nodup by decide
  refine ⟨_, _, (SourceFile.finished_of_nodup paths).1,
    (SourceFile.inOrder_perm _).mem_iff.mpr (.tail _ (.head _)), ?_⟩
  exact outlines_modelsFile (canonical_rename distinct canonical) _

/-- **Models and the types that contain each other.** The file of models declares one type for each
model. A type contains another one by value iff its model is a bare reference to the model of the
other one, or to the name that this model gets instead of its own. Without references to such names,
no type contains itself iff bare references never lead back, however models refer to each other in
properties, arrays, maps and where null is admitted. -/
theorem containment_exact :
    ∃ generated text, Language.go.generate api none = .ok generated ∧
      ⟨"models.go", text⟩ ∈ generated ∧ Contained api (outlines text) := by
  obtain ⟨generated, text, produced, listed, types⟩ := exists_models_file distinct canonical
  exact ⟨generated, text, produced, listed, types ▸ contained_typesOf distinct canonical⟩

end Client

/-- Pets that have parents and litters, and clients that are pets. -/
def litters : Api :=
  { title := "Litters", version := "1"
    models := [
      ⟨"Pet", .object [("parent", .ref "Pet"), ("litter", .array (.ref "Client"))] ["parent"]
        (.allowed (.nullable (.ref "Pet"))), none, none⟩,
      ⟨"Client", .ref "Pet", none, none⟩]
    operations := [] }

theorem containment_litters : (litters.models.map (·.name)).Nodup ∧
    (∀ m ∈ litters.models, Canonical m) ∧
    ∃ generated text, Language.go.generate litters none = .ok generated ∧
      ⟨"models.go", text⟩ ∈ generated ∧ Contained litters (outlines text) := by
  have distinct : (litters.models.map (·.name)).Nodup := by decide
  have pet : Naming.IsName isAsciiCapital "Pet".toList := .letter rfl (List.all_eq_true.mp rfl)
  have client : Naming.IsName isAsciiCapital "Client".toList := .letter rfl (List.all_eq_true.mp rfl)
  have references : ∀ m ∈ litters.models, ∀ name ∈ m.shape.references,
      name = "Pet" ∨ name = "Client" := by
    simp [litters, Shape.mem_references, Shape.nodes, Shape.nodesOfProperties, Shape.nodesOfExtra]
  have canonical : ∀ m ∈ litters.models, Canonical m := by
    intro m listed
    refine ⟨?_, fun name mentioned => ?_⟩
    · rcases List.mem_pair.mp listed with rfl | rfl
      · exact pet
      · exact client
    · rcases references m listed name mentioned with rfl | rfl
      · exact pet
      · exact client
  exact ⟨distinct, canonical, containment_exact distinct canonical⟩

/-- A client that is a bare reference to the name that it gets instead of its own. -/
def selfMade : Api :=
  { title := "Self", version := "1", operations := []
    models := [⟨"Client", .ref "ClientModel", none, none⟩] }

/-- **A reference that stands for no model can be captured**: bare references never lead back, and
a type contains itself. -/
theorem not_acyclic_selfMade : (selfMade.models.map (·.name)).Nodup ∧
    (∀ m ∈ selfMade.models, Canonical m) ∧ Acyclic (Refers selfMade.models) ∧
    ∃ generated text, Language.go.generate selfMade none = .ok generated ∧
      ⟨"models.go", text⟩ ∈ generated ∧ ¬ Acyclic (Contains (outlines text)) := by
  have distinct : (selfMade.models.map (·.name)).Nodup := by decide
  have canonical : ∀ m ∈ selfMade.models, Canonical m := by
    refine List.forall_mem_singleton.mpr
      ⟨.letter rfl (List.all_eq_true.mp rfl), fun name mentioned => ?_⟩
    obtain rfl : name = "ClientModel" := by
      simpa [Shape.mem_references, Shape.nodes] using mentioned
    exact .letter rfl (List.all_eq_true.mp rfl)
  have finite : Acyclic (Refers selfMade.models) := by
    intro name circle
    obtain ⟨_, ⟨m, listed, first, -⟩, -⟩ := TransGen.head'_iff.mp circle
    obtain ⟨_, -, ⟨n, alsoListed, -, last⟩⟩ := TransGen.tail'_iff.mp circle
    obtain rfl := List.mem_singleton.mp listed
    obtain rfl := List.mem_singleton.mp alsoListed
    cases last
    exact absurd first (by decide)
  refine ⟨distinct, canonical, finite, ?_⟩
  obtain ⟨generated, text, produced, listed, types⟩ := exists_models_file distinct canonical
  refine ⟨generated, text, produced, listed, fun acyclic => acyclic "ClientModel" (.single ?_)⟩
  have given : typeName selfMade "Client" = "ClientModel" := by decide
  have own := (contains_typeName_iff distinct canonical (.head _) (.head _)).mpr
    (.inr (given.symm ▸ rfl))
  rw [types, ← given]
  exact own

end ClientGen.Go
